import NamedSql.Proofs.Quotes
import NamedSql.Proofs.Trailing

/-!
# Placeholders in rewritten SQL

Pages are cut out and rows are counted by SQL that a vendor puts around a query. The placeholders of the
query keep their order and move together (`Vendor.moved_pageSql`, `Vendor.moved_countSql`). The one
exception is SQL Server's count, which drops a trailing ORDER BY and any placeholder in it
(`Vendor.length_countSql`).
-/

namespace NamedSql

/-- The question marks of `s` outside literals, all of them moved by the same distance, are those of
`t`. -/
def Moved (s t : List Char) : Prop :=
  ∃ k, questions false 0 t = (questions false 0 s).map (· + k)

theorem Moved.refl (s : List Char) : Moved s s :=
  ⟨0, (List.map_id _).symm⟩

theorem Moved.length_eq {s t : List Char} (h : Moved s t) :
    (questions false 0 t).length = (questions false 0 s).length := by
  obtain ⟨k, hk⟩ := h
  rw [hk, List.length_map]

theorem questions_add (q : Bool) (n k : Nat) (s : List Char) :
    questions q (n + k) s = (questions q n s).map (· + k) := by
  induction s generalizing q n with
  | nil => rfl
  | cons c s ih =>
    have hnext : n + k + 1 = n + 1 + k := Nat.add_right_comm n k 1
    by_cases hc : c = '\''
    · rw [hc, questions_quote, questions_quote, hnext, ih]
    · rw [questions_cons hc, questions_cons hc, hnext, ih, List.map_append]
      split <;> rfl

def Unmarked (s : String) : Prop :=
  '?' ∉ s.toList

instance (s : String) : Decidable (Unmarked s) :=
  inferInstanceAs (Decidable ('?' ∉ s.toList))

theorem Unmarked.append {s t : String} (hs : Unmarked s) (ht : Unmarked t) : Unmarked (s ++ t) := by
  intro h
  rw [String.toList_append, List.mem_append] at h
  exact h.elim hs ht

theorem unmarked_toString (n : Nat) : Unmarked (toString n) := by
  intro h
  have hdigits : '?' ∈ Nat.toDigits 10 n := Nat.toList_repr ▸ h
  exact absurd (Nat.isDigit_of_mem_toDigits (by decide) (by decide) hdigits) (by decide)

/-- What stands around a text has no question marks, and no literal is open in front of the text. -/
theorem moved_around {before after : String} (sql : String) (hquote : '\'' ∉ before.toList)
    (hbefore : Unmarked before) (hafter : Unmarked after) :
    Moved sql.toList (before ++ sql ++ after).toList := by
  refine ⟨before.toList.length, ?_⟩
  rw [String.toList_append, String.toList_append, questions_append, questions_append, questions_plain hbefore,
    questions_plain hafter, quotedAfter_plain hquote, List.nil_append, List.append_nil, questions_add]

theorem moved_behind {after : String} (sql : String) (hafter : Unmarked after) :
    Moved sql.toList (sql ++ after).toList := by
  have h : Moved sql.toList ("" ++ sql ++ after).toList :=
    moved_around sql List.not_mem_nil List.not_mem_nil hafter
  rwa [String.empty_append] at h

/-! ### Pages -/

theorem Cut.moved_render (sql : String) (cut : Cut) : Moved sql.toList (cut.render sql).toList := by
  cases cut with
  | whole => exact Moved.refl sql.toList
  | limit count =>
    show Moved _ (sql ++ " LIMIT " ++ toString count.toNat).toList
    rw [String.append_assoc]
    exact moved_behind sql (.append (by decide +kernel) (unmarked_toString _))
  | limitOffset count skip =>
    show Moved _ (sql ++ " LIMIT " ++ toString count.toNat ++ " OFFSET " ++ toString skip.toNat).toList
    rw [String.append_assoc, String.append_assoc, String.append_assoc]
    exact moved_behind sql (.append (by decide +kernel) (.append (unmarked_toString _)
      (.append (by decide +kernel) (unmarked_toString _))))
  | anyLimitOffset skip =>
    show Moved _ (sql ++ " LIMIT -1 OFFSET " ++ toString skip.toNat).toList
    rw [String.append_assoc]
    exact moved_behind sql (.append (by decide +kernel) (unmarked_toString _))
  | offset skip =>
    show Moved _ (sql ++ " OFFSET " ++ toString skip.toNat).toList
    rw [String.append_assoc]
    exact moved_behind sql (.append (by decide +kernel) (unmarked_toString _))
  | numbered count =>
    show Moved _ ("SELECT * FROM (" ++ sql ++ ") WHERE ROWNUM <= " ++ toString count.toNat).toList
    rw [String.append_assoc]
    exact moved_around sql (by decide +kernel) (by decide +kernel)
      (.append (by decide +kernel) (unmarked_toString _))
  | numberedBetween count skip =>
    show Moved _ ("SELECT * FROM (SELECT row_.*, ROWNUM rownum_ FROM (" ++ sql ++ ") row_ WHERE ROWNUM <= "
      ++ toString count.toNat ++ ") WHERE rownum_ > " ++ toString skip.toNat).toList
    rw [String.append_assoc, String.append_assoc, String.append_assoc]
    exact moved_around sql (by decide +kernel) (by decide +kernel) (.append (by decide +kernel)
      (.append (unmarked_toString _) (.append (by decide +kernel) (unmarked_toString _))))
  | numberedAbove skip =>
    show Moved _ ("SELECT * FROM (SELECT row_.*, ROWNUM rownum_ FROM (" ++ sql ++ ") row_) WHERE rownum_ > "
      ++ toString skip.toNat).toList
    rw [String.append_assoc]
    exact moved_around sql (by decide +kernel) (by decide +kernel)
      (.append (by decide +kernel) (unmarked_toString _))

namespace Vendor

theorem moved_pageSql (v : Vendor) (sql : String) (p : Page) : Moved sql.toList (v.pageSql sql p).toList :=
  (v.cut p).moved_render sql

/-! ### Counts -/

end Vendor

/-- The question marks of a text, outside literals, that go with its trailing ORDER BY. -/
def orderByQuestions (sql : String) : List Nat :=
  let kept := OrderBy.drop sql.toList
  questions (quotedAfter false kept) kept.length (sql.toList.drop kept.length)

theorem questions_dropOrderBy (sql : String) :
    questions false 0 sql.toList = questions false 0 (dropOrderBy sql).toList ++ orderByQuestions sql := by
  obtain ⟨dropped, hdropped⟩ := OrderBy.drop_prefix sql.toList
  have hrest : sql.toList.drop (OrderBy.drop sql.toList).length = dropped :=
    (congrArg (List.drop _) hdropped).symm.trans List.drop_left
  have hsplit : questions false 0 sql.toList = questions false 0 (OrderBy.drop sql.toList) ++
      questions (quotedAfter false (OrderBy.drop sql.toList)) (OrderBy.drop sql.toList).length dropped := by
    rw [← Nat.zero_add (OrderBy.drop sql.toList).length, ← questions_append, hdropped]
  unfold orderByQuestions dropOrderBy
  dsimp only
  rw [String.toList_ofList, hrest, hsplit]

namespace Vendor

theorem moved_countSql {v : Vendor} (hv : v ≠ .mssql) (sql : String) :
    Moved sql.toList (v.countSql sql).toList := by
  cases v with
  | mssql => exact absurd rfl hv
  | _ => exact moved_around sql (by decide +kernel) (by decide +kernel) (by decide +kernel)

/-- SQL Server's count keeps the placeholders in front of a trailing ORDER BY. -/
theorem length_countSql (sql : String) :
    (questions false 0 (countSql .mssql sql).toList).length + (orderByQuestions sql).length =
      (questions false 0 sql.toList).length := by
  have hkept : Moved (dropOrderBy sql).toList (countSql .mssql sql).toList :=
    moved_around (dropOrderBy sql) (by decide +kernel) (by decide +kernel) (by decide +kernel)
  rw [hkept.length_eq, questions_dropOrderBy sql, List.length_append]

end Vendor

end NamedSql
