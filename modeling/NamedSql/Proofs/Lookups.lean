import NamedSql.Table
import Mathlib

/-!
# Columns by their names

The positions of names are entered into a list one after another, and a name that is there already is not entered
again. So what is found under a name is the position of the first column that has this name, up to case and separators,
as in a search through the names (`lookup_enterAll`). Main statement: `columns_searched`.
-/

namespace NamedSql

namespace Columns

theorem lookup_enter (positions : List (List Char × Nat)) (name key : List Char) (n : Nat) :
    (enter positions name n).lookup key = (positions.lookup key).or (if name = key then some n else none) := by
  unfold enter
  split
  · next m hm =>
    by_cases h : name = key
    · rw [← h, hm, Option.some_or]
    · rw [if_neg h, Option.or_none]
  · next hnone =>
    by_cases h : name = key
    · rw [if_pos h, ← h, hnone, List.lookup_cons_self, Option.none_or]
    · have hne : (key == name) = false := beq_eq_false_iff_ne.2 (Ne.symm h)
      rw [if_neg h, Option.or_none, List.lookup_cons, hne]

/-- A name that is entered is found where it was before, or else at its first place among the names. -/
theorem lookup_enterAll (positions : List (List Char × Nat)) (names : List String) (n : Nat) (key : List Char) :
    (enterAll positions n names).lookup key =
      (positions.lookup key).or ((names.findIdx? fun name => plainName name.toList == key).map (n + ·)) := by
  induction names generalizing positions n with
  | nil => rw [enterAll, List.findIdx?_nil, Option.map_none, Option.or_none]
  | cons name names ih =>
    rw [enterAll, ih, lookup_enter, Option.or_assoc, List.findIdx?_cons]
    congr 1
    by_cases h : plainName name.toList = key
    · rw [if_pos h, if_pos (beq_iff_eq.2 h)]
      rfl
    · rw [if_neg h, if_neg (mt beq_iff_eq.1 h), Option.none_or, Option.map_map]
      congr 1
      funext i
      show n + 1 + i = n + (i + 1)
      omega

theorem position?_ofNames (names : List String) (name : String) :
    (ofNames names).position? name = names.findIdx? fun other => plainName other.toList == plainName name.toList := by
  rw [position?, ofNames, lookup_enterAll, List.lookup_nil, Option.none_or]
  simp

end Columns

/-- The columns of a name: the names at their positions are this name, up to case and separators. -/
def positionsNamed (names : List String) (name : String) : Set Nat :=
  {i | ∃ other, names[i]? = some other ∧ plainName other.toList = plainName name.toList}

theorem Columns.position?_eq_some_iff {names : List String} {name : String} {i : Nat} :
    (ofNames names).position? name = some i ↔ IsLeast (positionsNamed names name) i := by
  rw [position?_ofNames, List.findIdx?_eq_some_iff_getElem]
  constructor
  · rintro ⟨hi, hname, hfirst⟩
    refine ⟨⟨names[i], List.getElem?_eq_getElem hi, beq_iff_eq.1 hname⟩, fun j ⟨other, hj, hother⟩ => ?_⟩
    by_contra hlt
    obtain ⟨hj', rfl⟩ := List.getElem?_eq_some_iff.1 hj
    exact hfirst j (Nat.lt_of_not_le hlt) (beq_iff_eq.2 hother)
  · rintro ⟨⟨other, hi, hname⟩, hfirst⟩
    obtain ⟨hi', rfl⟩ := List.getElem?_eq_some_iff.1 hi
    refine ⟨hi', beq_iff_eq.2 hname, fun j hj hother => ?_⟩
    have hj' : j < names.length := Nat.lt_trans hj hi'
    exact Nat.not_le.2 hj (hfirst ⟨names[j], List.getElem?_eq_getElem hj', beq_iff_eq.1 hother⟩)

theorem Columns.position?_eq_none_iff {names : List String} {name : String} :
    (ofNames names).position? name = none ↔ positionsNamed names name = ∅ := by
  rw [Set.eq_empty_iff_forall_notMem, position?_ofNames, List.findIdx?_eq_none_iff]
  constructor
  · rintro hnone i ⟨other, hi, hother⟩
    exact beq_eq_false_iff_ne.1 (hnone other (List.mem_of_getElem? hi)) hother
  · intro hempty other hmem
    obtain ⟨i, hi⟩ := List.getElem?_of_mem hmem
    exact beq_eq_false_iff_ne.2 fun hother => hempty i ⟨other, hi, hother⟩

namespace Record

/-- Whatever the columns are called and however long a row is, a name is looked up as in a search for the first column
of this name. If there is one, the value is read by its position, and a row that ends in front of it has none. -/
theorem columns_searched (names : List String) (values : Row) (name : String) (target : Representation) :
    let r : Record := ⟨.ofNames names, values⟩
    (∃ i v, IsLeast (positionsNamed names name) i ∧ values[i]? = some v ∧ r.columns.position? name = some i ∧
      r.get? name = some v ∧ r.read name target = r.readAt i target ∧
      r.readAt i target = Vendor.ofStorage v target) ∨
    (∃ i, IsLeast (positionsNamed names name) i ∧ values.length ≤ i ∧ r.columns.position? name = some i ∧
      r.get? name = none ∧ r.read name target = r.readAt i target ∧
      r.readAt i target = .error (.usage (.columnOutOfRange i values.length))) ∨
    (positionsNamed names name = ∅ ∧ r.columns.position? name = none ∧ r.get? name = none ∧
      r.read name target = .error (.usage (.noColumn name names))) := by
  intro r
  cases hposition : r.columns.position? name with
  | none =>
    have hempty : positionsNamed names name = ∅ := Columns.position?_eq_none_iff.1 hposition
    exact .inr (.inr ⟨hempty, rfl, by rw [get?, hposition]; rfl, by rw [read, hposition]; rfl⟩)
  | some i =>
    have hleast : IsLeast (positionsNamed names name) i := Columns.position?_eq_some_iff.1 hposition
    have hget : r.get? name = values[i]? := by
      rw [get?, hposition]
      rfl
    have hread : r.read name target = r.readAt i target := by
      rw [read, hposition]
    cases hvalue : values[i]? with
    | some v =>
      have hat : r.readAt i target = Vendor.ofStorage v target := by
        rw [readAt, hvalue]
      exact .inl ⟨i, v, hleast, hvalue, rfl, hget.trans hvalue, hread, hat⟩
    | none =>
      have hat : r.readAt i target = .error (.usage (.columnOutOfRange i values.length)) := by
        rw [readAt, hvalue]
      exact .inr (.inl ⟨i, hleast, List.getElem?_eq_none_iff.1 hvalue, rfl, hget.trans hvalue, hread, hat⟩)

/-- The second and the third name are the same, and the row ends in front of the last column. -/
example :
    let r : Record := ⟨.ofNames ["id", "USER_NAME", "user name", "SINCE"], [.integer 1, .text "ann", .text "bob"]⟩
    r.get? "userName" = some (.text "ann") ∧ r.columns.position? "since" = some 3 ∧ r.get? "since" = none :=
  ⟨rfl, rfl, rfl⟩

end Record

end NamedSql
