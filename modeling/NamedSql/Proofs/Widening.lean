import NamedSql.Proofs.Placeholders

/-!
# Widening for sequences

The SQL for a sequence of some length is made without bindings, from the name of the sequence and its length. It is
the SQL that the template is filled in with, for all bindings under which the markers of that name take sequences of
this length and the others take single values (`widened_as_filled`).
-/

namespace NamedSql

/-- The parameter stands for a single value: it is no sequence, or a sequence of one element. -/
def Param.IsSingle (p : Param) : Prop :=
  ∀ items, p = .sequence items → items.length = 1

namespace Template

/-- Of the markers that take whole sequences, those named `name` are given sequences of `size` elements and the others
single values. -/
def Gives (t : Template) (b : Bindings) (name : String) (size : Nat) : Prop :=
  ∀ i m, t.markers[i]? = some m → m.takesAll = true → ∃ p, lookup b (i + 1) m = some p ∧
    (m.name = name → ∃ items, p = .sequence items ∧ items.length = size) ∧ (m.name ≠ name → p.IsSingle)

/-! ### How many values a marker takes -/

section
variable {escape : Char} {b : Bindings} {position : Nat} {d : Marker} {p : Param} {values : List Value}

theorem Takes.elements (h : Takes escape b position d values) (hp : lookup b position d = some p) :
    ∃ raw, Elements d p raw ∧ raw.length = values.length := by
  obtain ⟨p', raw, hp', hraw, hvalues⟩ := h
  have hlookup : lookup b position d = some p' := by
    unfold lookup
    rcases hp' with hp' | ⟨hnone, hp'⟩
    · rw [hp']
    · rw [hnone, hp']
  obtain rfl := Option.some.inj (hp.symm.trans hlookup)
  exact ⟨raw, hraw, hvalues.length_eq⟩

theorem Takes.length_of_sequence {items : List Value} (h : Takes escape b position d values)
    (hd : d.takesAll = true) (hp : lookup b position d = some (.sequence items)) : values.length = items.length := by
  obtain ⟨raw, hraw, hlength⟩ := h.elements hp
  cases hraw with
  | element hat _ => simp [Marker.takesAll, hat] at hd
  | all _ _ => exact hlength.symm

theorem Takes.length_of_single (h : Takes escape b position d values) (hd : d.takesAll = true)
    (hp : lookup b position d = some p) (hsingle : p.IsSingle) : values.length = 1 := by
  cases p with
  | sequence items => rw [h.length_of_sequence hd hp, hsingle items rfl]
  | value _ | stream _ =>
    obtain ⟨raw, hraw, hlength⟩ := h.elements hp
    cases hraw
    exact hlength.symm

end

/-! ### The two ways -/

/-- The number of values for a marker when the markers named `name` take sequences of `size` elements. -/
def widthFor (name : String) (size : Nat) (m : Marker) : Nat :=
  if m.name == name && m.takesAll then size else 1

theorem widen_eq_ok {t : Template} {name : String} {size : Nat}
    (hname : ∃ m ∈ t.markers, m.name = name ∧ m.takesAll = true) (hsize : 1 ≤ size) :
    t.widen name size = .ok (t.expand (t.markers.map (widthFor name size))) := by
  have hany : (t.markers.any fun m => m.name == name && m.takesAll) = true := by
    obtain ⟨m, hm, hmname, hall⟩ := hname
    exact List.any_eq_true.2 ⟨m, hm, by simp [hmname, hall]⟩
  have hne : size ≠ 0 := Nat.one_le_iff_ne_zero.1 hsize
  simp only [widen, if_neg hne, hany, Bool.not_true, Bool.false_eq_true, if_false]
  rfl

/-- The markers take as many values as the name and the length of the sequence say. -/
theorem lengths_of_gives {t : Template} {b : Bindings} {name : String} {size : Nat} {groups : List (List Value)}
    (hgroups : resolveAll t.escape b 1 t.markers = .ok groups) (hb : t.Gives b name size) :
    groups.map List.length = t.markers.map (widthFor name size) := by
  obtain ⟨us, hmarkers, rfl, htakes⟩ := exists_slots_of_markers hgroups
  rw [← hmarkers, List.map_map, List.map_map]
  refine List.map_congr_left fun u hu => ?_
  obtain ⟨i, hi⟩ := List.getElem?_of_mem hu
  have htaken : Takes t.escape b (i + 1) u.marker u.values := Nat.add_comm 1 i ▸ htakes i u hi
  show u.values.length = widthFor name size u.marker
  cases hall : u.marker.takesAll with
  | false => rw [htaken.length_eq_one hall, widthFor, hall, Bool.and_false, if_neg Bool.false_ne_true]
  | true =>
    have hmarker : t.markers[i]? = some u.marker := by rw [← hmarkers, List.getElem?_map, hi]; rfl
    obtain ⟨p, hp, hnamed, hother⟩ := hb i u.marker hmarker hall
    by_cases hname : u.marker.name = name
    · obtain ⟨items, rfl, rfl⟩ := hnamed hname
      rw [htaken.length_of_sequence hall hp, widthFor, hall, hname]
      simp
    · rw [htaken.length_of_single hall hp (hother hname), widthFor, beq_false_of_ne hname, Bool.false_and,
        if_neg Bool.false_ne_true]

/-- Widened for a sequence of a given length, a template has the SQL that it is filled in with, whatever bindings give
its markers such sequences and single values otherwise. For a sequence of one element it is the template's own SQL. -/
theorem widened_as_filled {t : Template} {name : String} (hname : ∃ m ∈ t.markers, m.name = name ∧ m.takesAll = true) :
    (∀ {size : Nat} {b : Bindings} {f : Filled}, 1 ≤ size → t.fill b = .ok f → t.Gives b name size →
      t.widen name size = .ok f.sql) ∧
    t.widen name 1 = .ok t.sql := by
  constructor
  · intro size b f hsize hf hb
    rcases hgroups : resolveAll t.escape b 1 t.markers with fault | groups
    · simp only [fill, hgroups, reduceCtorEq] at hf
    have hsequences : t.hasSequences = true := by
      obtain ⟨m, hm, -, hall⟩ := hname
      exact List.any_eq_true.2 ⟨m, hm, hall⟩
    simp only [fill, hgroups, hsequences, if_true, Except.ok.injEq] at hf
    rw [widen_eq_ok hname hsize, ← hf, lengths_of_gives hgroups hb]
  · have hones : ∀ w ∈ t.markers.map (widthFor name 1), w = 1 :=
      List.forall_mem_map.2 fun m _ => ite_self 1
    rw [widen_eq_ok hname (Nat.le_refl 1), expand, expandPieces_ones t.escape hones]
    rfl

def repeatedText : String :=
  "a IN (:x[]) AND b = :r[1] OR c LIKE :%x[] OR :y[]"

/-- The first marker has an entry of its own. -/
def repeatedBindings : Bindings :=
  ⟨[(.index 1, .sequence [.integer 1, .integer 2]), (.name "r", .sequence [.null, .null, .null]),
    (.name "x", .sequence [.text "a", .text "b"]), (.name "y", .value .null)]⟩

theorem widened_as_filled_of_repeated : ∃ t f, parse '!' repeatedText = .ok t ∧
    (∃ m ∈ t.markers, m.name = "x" ∧ m.takesAll = true) ∧ t.fill repeatedBindings = .ok f ∧
    t.Gives repeatedBindings "x" 2 ∧ t.widen "x" 2 = .ok f.sql ∧
    f.sql = "a IN (?, ?) AND b = ? OR c LIKE ?, ? ESCAPE '!' OR ?" ∧ t.widen "x" 1 = .ok t.sql := by
  have h : ∃ t, parse '!' repeatedText = .ok t ∧
      t.markers = [⟨"x", false, false, some .all⟩, ⟨"r", false, false, some (.at 1)⟩, ⟨"x", true, false, some .all⟩,
        ⟨"y", false, false, some .all⟩] ∧
      ∃ f, t.fill repeatedBindings = .ok f ∧ f.sql = "a IN (?, ?) AND b = ? OR c LIKE ?, ? ESCAPE '!' OR ?" :=
    ⟨_, by cbv, by cbv, _, by cbv, by cbv⟩
  obtain ⟨t, ht, hmarkers, f, hf, hsql⟩ := h
  have hname : ∃ m ∈ t.markers, m.name = "x" ∧ m.takesAll = true := by
    rw [hmarkers]
    exact ⟨_, List.mem_cons_self, rfl, rfl⟩
  have hgives : t.Gives repeatedBindings "x" 2 := by
    intro i m hm hall
    rw [hmarkers] at hm
    rcases i with _ | _ | _ | _ | i
    · cases hm
      exact ⟨.sequence [.integer 1, .integer 2], by cbv, fun _ => ⟨_, rfl, rfl⟩, fun h => absurd rfl h⟩
    · cases hm
      cases hall
    · cases hm
      exact ⟨.sequence [.text "a", .text "b"], by cbv, fun _ => ⟨_, rfl, rfl⟩, fun h => absurd rfl h⟩
    · cases hm
      refine ⟨.value .null, by cbv, fun hx => absurd hx (by decide), fun _ items hitems => ?_⟩
      cases hitems
    · cases hm
  obtain ⟨hfilled, hone⟩ := widened_as_filled hname
  exact ⟨t, f, ht, hname, hf, hgives, hfilled (by decide) hf hgives, hsql, hone⟩

end Template

end NamedSql
