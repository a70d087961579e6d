import NamedSql.Roster
import Mathlib.Data.String.Basic

/-!
# Rosters in order

In a roster whose names ascend, entering or erasing a name changes the one place where the name stands
or belongs.
-/

namespace NamedSql.Roster

variable {α : Type} {r : Roster α} {name : String} {a : α}

/-- The names ascend, so each occurs once. -/
def Ascending (r : Roster α) : Prop :=
  r.Pairwise fun p q => p.1 < q.1

/-- Where the thing of a name stands. -/
theorem Ascending.exists_of_get? (h : Ascending r) (hg : r.get? name = some a) :
    ∃ before after : Roster α, r = before ++ (name, a) :: after ∧ r.erase name = before ++ after ∧
      ∀ a', r.put name a' = before ++ (name, a') :: after := by
  induction r with
  | nil => cases hg
  | cons p r ih =>
    obtain ⟨other, o⟩ := p
    obtain ⟨hfirst, hr⟩ := List.pairwise_cons.1 h
    by_cases heq : name = other
    · obtain rfl := heq
      have hlookup : List.lookup name ((name, o) :: r) = some o := by rw [List.lookup_cons, beq_self_eq_true]
      obtain rfl : o = a := Option.some.inj (hlookup.symm.trans hg)
      have herase : r.filter (·.1 != name) = r := by
        refine List.filter_eq_self.2 fun q hq => ?_
        rw [bne_iff_ne]
        exact (hfirst q hq).ne'
      refine ⟨[], r, rfl, ?_, fun a' => ?_⟩
      · rw [erase, List.filter_cons_of_neg (by simp), herase]; rfl
      · rw [put, if_neg (lt_irrefl name), if_pos rfl]; rfl
    · have hlookup : List.lookup name ((other, o) :: r) = List.lookup name r := by
        rw [List.lookup_cons, beq_false_of_ne heq]
      obtain ⟨before, after, hsplit, herase, hput⟩ := ih hr (hlookup.symm.trans hg)
      have hlt : other < name := hfirst (name, a) (by rw [hsplit]; simp)
      refine ⟨(other, o) :: before, after, by rw [hsplit]; rfl, ?_, fun a' => ?_⟩
      · rw [erase, List.filter_cons_of_pos (by simpa using Ne.symm heq), ← erase, herase]; rfl
      · rw [put, if_neg hlt.asymm, if_neg heq, hput]; rfl

/-- Where a thing belongs whose name is new. -/
theorem Ascending.exists_of_get?_none (h : Ascending r) (hg : r.get? name = none) :
    ∃ before after : Roster α, r = before ++ after ∧ ∀ a', r.put name a' = before ++ (name, a') :: after := by
  induction r with
  | nil => exact ⟨[], [], rfl, fun _ => rfl⟩
  | cons p r ih =>
    obtain ⟨other, o⟩ := p
    obtain ⟨-, hr⟩ := List.pairwise_cons.1 h
    have heq : name ≠ other := by
      rintro rfl
      rw [get?, List.lookup_cons, beq_self_eq_true] at hg
      cases hg
    by_cases hlt : name < other
    · exact ⟨[], (other, o) :: r, rfl, fun a' => by rw [put, if_pos hlt]; rfl⟩
    · rw [get?, List.lookup_cons, beq_false_of_ne heq] at hg
      obtain ⟨before, after, rfl, hput⟩ := ih hr hg
      exact ⟨(other, o) :: before, after, rfl, fun a' => by rw [put, if_neg hlt, if_neg heq, hput]; rfl⟩

theorem get?_erase : (r.erase name).get? name = none := by
  rw [get?, List.lookup_eq_none_iff]
  intro p hp
  have hne := (List.mem_filter.1 hp).2
  rw [bne_iff_ne] at hne
  exact bne_iff_ne.2 hne.symm

theorem mem_put {p : String × α} (hp : p ∈ r.put name a) : p = (name, a) ∨ p ∈ r := by
  induction r with
  | nil => exact .inl (List.mem_singleton.1 hp)
  | cons q r ih =>
    obtain ⟨other, o⟩ := q
    unfold put at hp
    split at hp
    · exact List.mem_cons.1 hp
    · split at hp
      · exact (List.mem_cons.1 hp).imp_right (List.mem_cons_of_mem _)
      · rcases List.mem_cons.1 hp with rfl | hp
        · exact .inr List.mem_cons_self
        · exact (ih hp).imp_right (List.mem_cons_of_mem _)

theorem get?_put_self : (r.put name a).get? name = some a := by
  induction r with
  | nil => exact List.lookup_cons_self
  | cons p r ih =>
    obtain ⟨other, o⟩ := p
    unfold put
    split
    · exact List.lookup_cons_self
    · split
      · exact List.lookup_cons_self
      · next hne =>
        rw [get?, List.lookup_cons, beq_false_of_ne hne]
        exact ih

theorem get?_put_of_ne {other : String} (h : other ≠ name) : (r.put name a).get? other = r.get? other := by
  have hskip (rest : Roster α) : get? ((name, a) :: rest) other = rest.get? other := by
    rw [get?, List.lookup_cons, beq_false_of_ne h]
    rfl
  induction r with
  | nil => exact hskip []
  | cons p r ih =>
    obtain ⟨first, o⟩ := p
    unfold put
    split
    · exact hskip _
    · split
      · next heq =>
        rw [hskip, get?, get?, List.lookup_cons, beq_false_of_ne (heq ▸ h)]
      · rw [get?, get?, List.lookup_cons, List.lookup_cons]
        split
        · rfl
        · exact ih

theorem isSome_get?_of_mem_names (h : name ∈ r.names) : (r.get? name).isSome := by
  obtain ⟨p, hp, rfl⟩ := List.mem_map.1 h
  rw [Option.isSome_iff_ne_none]
  intro hnone
  have hne := List.lookup_eq_none_iff.1 hnone p hp
  rw [bne_self_eq_false] at hne
  exact Bool.noConfusion hne

theorem names_map {β : Type} (f : α → β) : names (r.map fun p => (p.1, f p.2)) = r.names := by
  rw [names, List.map_map]
  rfl

theorem get?_map {β : Type} (f : α → β) : get? (r.map fun p => (p.1, f p.2)) name = (r.get? name).map f := by
  induction r with
  | nil => rfl
  | cons p r ih =>
    obtain ⟨other, o⟩ := p
    rw [List.map_cons, get?, get?, List.lookup_cons, List.lookup_cons]
    dsimp only
    cases name == other with
    | true => rfl
    | false => exact ih

theorem put_map {β : Type} (f : α → β) (a : α) :
    put (r.map fun p => (p.1, f p.2)) name (f a) = (r.put name a).map fun p => (p.1, f p.2) := by
  induction r with
  | nil => rfl
  | cons p r ih =>
    obtain ⟨other, o⟩ := p
    rw [List.map_cons, put, put, ih]
    split
    · rfl
    · split <;> rfl

theorem put_put (a' : α) : (r.put name a).put name a' = r.put name a' := by
  induction r with
  | nil =>
    rw [put, put, put, if_neg (lt_irrefl name), if_pos rfl]
  | cons p r ih =>
    obtain ⟨other, o⟩ := p
    by_cases hlt : name < other
    · rw [put, if_pos hlt, put, if_neg (lt_irrefl name), if_pos rfl, put, if_pos hlt]
    · by_cases heq : name = other
      · rw [put, if_neg hlt, if_pos heq, put, if_neg (lt_irrefl name), if_pos rfl, put, if_neg hlt, if_pos heq]
      · rw [put, if_neg hlt, if_neg heq, put, if_neg hlt, if_neg heq, ih, put, if_neg hlt, if_neg heq]

/-- What comes in place of a thing changes no names. -/
theorem Ascending.names_put (h : Ascending r) (hg : r.get? name = some a) (a' : α) :
    (r.put name a').names = r.names := by
  obtain ⟨before, after, hsplit, -, hput⟩ := h.exists_of_get? hg
  rw [hput, hsplit, names, names, List.map_append, List.map_append]
  rfl

theorem mem_of_get? (hg : r.get? name = some a) : (name, a) ∈ r := by
  induction r with
  | nil => cases hg
  | cons p r ih =>
    obtain ⟨other, o⟩ := p
    rw [get?, List.lookup_cons] at hg
    split at hg
    · next heq =>
      obtain rfl := beq_iff_eq.1 heq
      obtain rfl := Option.some.inj hg
      exact List.mem_cons_self
    · exact List.mem_cons_of_mem _ (ih hg)

theorem Ascending.put (h : Ascending r) : Ascending (r.put name a) := by
  induction r with
  | nil => exact List.pairwise_singleton _ _
  | cons q r ih =>
    obtain ⟨other, o⟩ := q
    obtain ⟨hfirst, hr⟩ := List.pairwise_cons.1 h
    unfold Roster.put
    split
    · rename_i hlt
      refine List.pairwise_cons.2 ⟨fun p hp => ?_, h⟩
      rcases List.mem_cons.1 hp with rfl | hp
      · exact hlt
      · exact hlt.trans (hfirst p hp)
    · split
      · rename_i heq
        obtain rfl := heq
        exact List.pairwise_cons.2 ⟨hfirst, hr⟩
      · rename_i hlt hne
        refine List.pairwise_cons.2 ⟨fun p hp => ?_, ih hr⟩
        rcases mem_put hp with rfl | hp
        · exact lt_of_le_of_ne (not_lt.1 hlt) (Ne.symm hne)
        · exact hfirst p hp

theorem Ascending.erase (h : Ascending r) : Ascending (r.erase name) :=
  List.Pairwise.filter _ h

end NamedSql.Roster
