import NamedSql.Proofs.ByteOrder
import NamedSql.Proofs.Reflexive
import NamedSql.Template.Filling

/-!
# Bindings are their associations

Whatever was bound, bound anew and taken out, and in which order, bindings are determined by the parameters that their
keys have in the end: the entries stand in the order of the keys, positions by number and then names by their bytes
(`Bindings.extensional`). Sameness of bindings is an equivalence on those without streams, and a stream makes bindings
differ from all others and from themselves.
-/

namespace NamedSql

/-! ### The order of keys -/

namespace Key

/-- Positions come before names, positions by number and names by their bytes. -/
def Precedes : Key → Key → Prop
  | .index m, .index n => m < n
  | .index _, .name _ => True
  | .name _, .index _ => False
  | .name s, .name t => Text.utf8Bytes s < Text.utf8Bytes t

variable {k l m : Key}

theorem before_iff_precedes : k.before l = true ↔ k.Precedes l := by
  cases k <;> cases l <;> simp [before, Precedes, Text.utf8Bytes_lt_iff]

theorem Precedes.irrefl (k : Key) : ¬ k.Precedes k := by
  cases k with
  | index n => exact Nat.lt_irrefl n
  | name s => exact List.lt_irrefl _

theorem Precedes.trans (h : k.Precedes l) (h' : l.Precedes m) : k.Precedes m := by
  cases k <;> cases l <;> cases m <;> simp only [Precedes] at h h' ⊢
  · exact Nat.lt_trans h h'
  · exact List.lt_trans h h'

theorem Precedes.of_not (hne : k ≠ l) (h : ¬ k.Precedes l) : l.Precedes k := by
  cases k <;> cases l <;> simp only [Precedes, Text.utf8Bytes_lt_iff, not_true_eq_false] at h ⊢
  · next i j => exact lt_of_le_of_ne (Nat.le_of_not_lt h) fun hij => hne (by rw [hij])
  · next s t => exact lt_of_le_of_ne (not_lt.1 h) fun hst => hne (by rw [hst])

end Key

namespace Bindings

/-! ### Entries in order -/

def Ascending (es : List (Key × Param)) : Prop :=
  es.Pairwise fun e f => e.1.Precedes f.1

variable {key : Key} {p : Param} {es fs : List (Key × Param)} {b : Bindings}

theorem mem_putEntry {e : Key × Param} (h : e ∈ putEntry key p es) : e = (key, p) ∨ e ∈ es := by
  induction es with
  | nil => exact .inl (List.mem_singleton.1 h)
  | cons f es ih =>
    obtain ⟨k, q⟩ := f
    unfold putEntry at h
    split at h
    · exact (List.mem_cons.1 h).imp_right (List.mem_cons_of_mem _)
    · split at h
      · exact List.mem_cons.1 h
      · rcases List.mem_cons.1 h with rfl | h
        · exact .inr List.mem_cons_self
        · exact (ih h).imp_right (List.mem_cons_of_mem _)

theorem Ascending.putEntry (h : Ascending es) : Ascending (putEntry key p es) := by
  induction es with
  | nil => exact List.pairwise_singleton _ _
  | cons f es ih =>
    obtain ⟨k, q⟩ := f
    obtain ⟨hfirst, hes⟩ := List.pairwise_cons.1 h
    unfold Bindings.putEntry
    split
    next heq => exact List.pairwise_cons.2 ⟨heq ▸ hfirst, hes⟩
    next hne =>
      split
      next hbefore =>
        have hkey := Key.before_iff_precedes.1 hbefore
        exact List.pairwise_cons.2 ⟨List.forall_mem_cons.2 ⟨hkey, fun e he => hkey.trans (hfirst e he)⟩, h⟩
      next hbefore =>
        have hkey : k.Precedes key := .of_not hne (mt Key.before_iff_precedes.2 hbefore)
        refine List.pairwise_cons.2 ⟨fun e he => ?_, ih hes⟩
        rcases mem_putEntry he with rfl | he
        · exact hkey
        · exact hfirst e he

/-- In order, what is found under a key is what is entered under it. -/
theorem Ascending.get?_eq_some_iff (h : Ascending b.entries) : b.get? key = some p ↔ (key, p) ∈ b.entries := by
  obtain ⟨es⟩ := b
  unfold get?
  dsimp only at h ⊢
  induction es with
  | nil => simp
  | cons e es ih =>
    obtain ⟨hfirst, hes⟩ := List.pairwise_cons.1 h
    rw [List.find?_cons, List.mem_cons]
    by_cases hkey : e.1 = key
    · have hnot : (key, p) ∉ es := fun hmem => Key.Precedes.irrefl key (hkey ▸ hfirst (key, p) hmem)
      obtain ⟨k, q⟩ := e
      obtain rfl : k = key := hkey
      simp [hnot, eq_comm]
    · have hne : (key, p) ≠ e := fun heq => hkey (heq ▸ rfl)
      simp only [decide_eq_false hkey, hne, false_or]
      exact ih hes

theorem Ascending.nodup (h : Ascending es) : es.Nodup := by
  show es.Pairwise (· ≠ ·)
  refine h.imp fun hef => ?_
  rintro rfl
  exact Key.Precedes.irrefl _ hef

/-- Entries in order are determined by what is found under the keys. -/
theorem Ascending.eq_of_get? {b c : Bindings} (hb : Ascending b.entries) (hc : Ascending c.entries)
    (h : b.get? = c.get?) : b = c := by
  have hperm : b.entries.Perm c.entries := by
    rw [List.perm_ext_iff_of_nodup hb.nodup hc.nodup]
    rintro ⟨key, p⟩
    rw [← hb.get?_eq_some_iff, ← hc.get?_eq_some_iff, h]
  have hentries : b.entries = c.entries :=
    hperm.eq_of_pairwise (fun e f _ _ hef hfe => absurd (hef.trans hfe) (Key.Precedes.irrefl _)) hb hc
  obtain ⟨es⟩ := b
  obtain ⟨fs⟩ := c
  exact congrArg Bindings.mk hentries

/-! ### What is found -/

theorem find?_putEntry (key : Key) (p : Param) (es : List (Key × Param)) (k : Key) :
    (putEntry key p es).find? (·.1 = k) = if k = key then some (key, p) else es.find? (·.1 = k) := by
  induction es with
  | nil => simp [putEntry, eq_comm]
  | cons f es ih =>
    obtain ⟨l, q⟩ := f
    unfold putEntry
    split
    next heq =>
      subst heq
      by_cases hk : k = key <;> simp [hk, eq_comm]
    next hne =>
      split
      next =>
        by_cases hk : k = key <;> simp [hk, eq_comm]
      next =>
        rw [List.find?_cons, List.find?_cons, ih]
        by_cases hk : k = key
        · subst hk
          simp [Ne.symm hne]
        · simp [hk]

theorem get?_insert (b : Bindings) (key : Key) (p : Param) :
    (b.insert key p).get? = Function.update b.get? key (some p) := by
  funext k
  rw [get?, insert, find?_putEntry, Function.update_apply]
  split <;> rfl

theorem get?_erase (b : Bindings) (key : Key) : (b.erase key).get? = Function.update b.get? key none := by
  funext k
  rw [get?, erase, List.find?_filter, Function.update_apply]
  split
  next hk => simp [hk]
  next hk =>
    have hkept (e : Key × Param) : (e.1 ≠ key ∧ e.1 = k) ↔ e.1 = k := ⟨And.right, fun he => ⟨he ▸ hk, he⟩⟩
    simp only [decide_eq_true_eq, hkept, get?]

/-! ### Histories -/

/-- What changes bindings. -/
inductive Change where
  | set (name : String) (p : Param)
  | setIndex (n : Nat) (p : Param)
  | insert (key : Key) (p : Param)
  | remove (key : Key)
  | clear

def Change.apply : Change → Bindings → Bindings
  | .set name p, b => b.insert (.name name) p
  | .setIndex n p, b => b.insert (.index n) p
  | .insert key p, b => b.insert key p
  | .remove key, b => b.erase key
  | .clear, _ => empty

/-- What a change makes of the parameters by their keys. -/
def Change.associate : Change → (Key → Option Param) → Key → Option Param
  | .set name p, f => Function.update f (.name name) (some p)
  | .setIndex n p, f => Function.update f (.index n) (some p)
  | .insert key p, f => Function.update f key (some p)
  | .remove key, f => Function.update f key none
  | .clear, _ => fun _ => none

/-- The bindings after changes. -/
def after (changes : List Change) : Bindings :=
  changes.foldl (fun b change => change.apply b) empty

/-- The parameter that each key has after changes. -/
def association (changes : List Change) : Key → Option Param :=
  changes.foldl (fun f change => change.associate f) fun _ => none

theorem ascending_apply (change : Change) (h : Ascending b.entries) :
    Ascending (change.apply b).entries ∧ (change.apply b).get? = change.associate b.get? := by
  cases change with
  | set | setIndex | insert => exact ⟨h.putEntry, get?_insert _ _ _⟩
  | remove => exact ⟨List.Pairwise.filter _ h, get?_erase _ _⟩
  | clear => exact ⟨List.Pairwise.nil, rfl⟩

/-- The invariant of a history: the entries are in order, and under each key its parameter is found. -/
theorem ascending_after (changes : List Change) :
    Ascending (after changes).entries ∧ (after changes).get? = association changes := by
  induction changes using List.reverseRecOn with
  | nil => exact ⟨List.Pairwise.nil, rfl⟩
  | append_singleton changes change ih =>
    obtain ⟨hascending, hget⟩ := ascending_apply change ih.1
    rw [after, association, List.foldl_concat, List.foldl_concat, ← after, ← association, ← ih.2]
    exact ⟨hascending, hget⟩

/-- Bindings after two histories in which each key ends with the same parameter are equal: their entries stand in the
order of the keys and are those of the keys' parameters, they are rendered alike, every template is filled alike with
them, and they are the same unless there is a stream in them. Sameness is symmetric and transitive, bindings are the
same as themselves exactly if there is no stream in them, and with a stream they are the same as none. A NaN may be
bound as a number, alone or in a list; in JSON documents, as in all that are read (`Json.hasNaN_of_ofText?`), is
none. -/
theorem extensional {xs ys : List Change} (h : association xs = association ys) :
    (after xs).entries = (after ys).entries ∧
    (after xs).entries.Pairwise (fun e f => e.1.Precedes f.1) ∧
    (∀ key p, (key, p) ∈ (after xs).entries ↔ association xs key = some p) ∧
    (after xs).render = (after ys).render ∧ (∀ t : Template, t.fill (after xs) = t.fill (after ys)) ∧
    ((after xs).hasJsonNaN = false → (after xs).hasStream = false → (after xs).same (after ys) = true) ∧
    (∀ b c : Bindings, b.same c = true → c.same b = true) ∧
    (∀ b c d : Bindings, b.same c = true → c.same d = true → b.same d = true) ∧
    (∀ b : Bindings, b.hasJsonNaN = false → (b.same b = true ↔ b.hasStream = false)) ∧
    ∀ b c : Bindings, b.hasStream = true → b.same c = false ∧ c.same b = false := by
  obtain ⟨hxs, hgetxs⟩ := ascending_after xs
  obtain ⟨hys, hgetys⟩ := ascending_after ys
  have hsame : after xs = after ys := hxs.eq_of_get? hys (by rw [hgetxs, hgetys, h])
  refine ⟨congrArg entries hsame, hxs, fun key p => by rw [← hgetxs, hxs.get?_eq_some_iff], congrArg render hsame,
    fun t => congrArg t.fill hsame, fun hnan hstream => ?_, fun _ _ => sameEntries_symm,
    fun _ _ _ => sameEntries_trans, fun b => same_self_iff, fun b c hstream => ?_⟩
  · rw [← hsame]
    exact (same_self_iff hnan).2 hstream
  · have hnot : b.same c ≠ true := fun hbc => by
      rw [hasStream_of_same hbc] at hstream
      cases hstream
    exact ⟨Bool.eq_false_iff.2 hnot, Bool.eq_false_iff.2 fun hcb => hnot (sameEntries_symm hcb)⟩

/-- A name is bound twice, and a position to a list with a NaN. -/
def overwriting : List Change :=
  [.set "z" (.value (.integer 1)), .setIndex 2 (.sequence [.float (.nan false)]), .set "z" (.value (.integer 2))]

/-- The same parameters in another order, after others were taken out. -/
def clearing : List Change :=
  [.setIndex 7 (.stream []), .clear, .insert (.name "a") (.value .null), .insert (.name "z") (.value (.integer 2)),
    .setIndex 2 (.sequence [.float (.nan false)]), .remove (.name "a")]

theorem extensional_of_overwriting : association overwriting = association clearing ∧
    (after overwriting).entries = (after clearing).entries ∧ (after clearing).render = "\x7b2=[NaN], z=2\x7d" ∧
    (after overwriting).same (after clearing) = true := by
  have h : association overwriting = association clearing := by
    funext key
    simp only [association, overwriting, clearing, List.foldl, Change.associate, Function.update_apply]
    by_cases hname : key = .name "z"
    · simp [hname]
    · by_cases hindex : key = .index 2 <;> simp [hname, hindex]
  obtain ⟨hentries, -, -, hrender, -, hsame, -⟩ := extensional h
  have htext : (after overwriting).render = "\x7b2=[NaN], z=2\x7d" := rfl
  exact ⟨h, hentries, hrender.symm.trans htext, hsame rfl rfl⟩

end Bindings

end NamedSql
