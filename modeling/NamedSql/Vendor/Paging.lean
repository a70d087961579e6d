import NamedSql.Page

/-!
# Pages in SQL

How each vendor cuts a page out of a query. A `Cut` says what is cut, `Cut.render` writes it around
the query, and `Cut.apply` is what it means for the rows of the query.
-/

namespace NamedSql

/-- What is cut out of the rows of a query. -/
inductive Cut where
  | whole
  | limit (count : UInt64)
  | limitOffset (count skip : UInt64)
  | anyLimitOffset (skip : UInt64)
  | offset (skip : UInt64)
  | numbered (count : UInt64)
  | numberedBetween (count skip : UInt64)
  | numberedAbove (skip : UInt64)
deriving DecidableEq, Repr

namespace Cut

/-- The SQL that cuts the rows of a query. -/
def render (sql : String) : Cut → String
  | whole => sql
  | limit count => sql ++ " LIMIT " ++ toString count.toNat
  | limitOffset count skip =>
    sql ++ " LIMIT " ++ toString count.toNat ++ " OFFSET " ++ toString skip.toNat
  | anyLimitOffset skip => sql ++ " LIMIT -1 OFFSET " ++ toString skip.toNat
  | offset skip => sql ++ " OFFSET " ++ toString skip.toNat
  | numbered count => "SELECT * FROM (" ++ sql ++ ") WHERE ROWNUM <= " ++ toString count.toNat
  | numberedBetween count skip =>
    "SELECT * FROM (SELECT row_.*, ROWNUM rownum_ FROM (" ++ sql ++ ") row_ WHERE ROWNUM <= "
      ++ toString count.toNat ++ ") WHERE rownum_ > " ++ toString skip.toNat
  | numberedAbove skip =>
    "SELECT * FROM (SELECT row_.*, ROWNUM rownum_ FROM (" ++ sql ++ ") row_) WHERE rownum_ > "
      ++ toString skip.toNat

/-- The rows with their numbers, counted from `n`. -/
def number {α : Type} (n : Nat) : List α → List (Nat × α)
  | [] => []
  | r :: rows => (n, r) :: number (n + 1) rows

/-- The rows that are left of the rows of a query. -/
def apply {α : Type} (rows : List α) : Cut → List α
  | whole => rows
  | limit count => rows.take count.toNat
  | limitOffset count skip => (rows.drop skip.toNat).take count.toNat
  | anyLimitOffset skip => rows.drop skip.toNat
  | offset skip => rows.drop skip.toNat
  | numbered count => ((number 1 rows).filter fun r => r.1 ≤ count.toNat).map (·.2)
  | numberedBetween count skip =>
    (((number 1 rows).filter fun r => r.1 ≤ count.toNat).filter fun r => skip.toNat < r.1).map (·.2)
  | numberedAbove skip => ((number 1 rows).filter fun r => skip.toNat < r.1).map (·.2)

end Cut

namespace Vendor

/-- Whether the vendor's SQL can select a page. SQL Server needs an ORDER BY for that, so the rows in
front of a page are skipped by the client there. -/
def pagesInSql : Vendor → Bool
  | mssql => false
  | _ => true

/-- The vendor's cut for a page. A vendor without offsets of their own gets the greatest limit, or
-1, in front of one. -/
def cut (v : Vendor) (p : Page) : Cut :=
  match v, p.limit with
  | mssql, _ => .whole
  | oracle, some limit =>
    if p.offset = 0 then .numbered limit
    else .numberedBetween (Page.saturatingAdd p.offset limit) p.offset
  | oracle, none => if p.offset = 0 then .whole else .numberedAbove p.offset
  | _, some limit => if p.offset = 0 then .limit limit else .limitOffset limit p.offset
  | postgres, none => if p.offset = 0 then .whole else .offset p.offset
  | sqlite, none => if p.offset = 0 then .whole else .anyLimitOffset p.offset
  | mysql, none => if p.offset = 0 then .whole else .limitOffset (UInt64.ofNat (twoTo 64 - 1)) p.offset

/-- The SQL for a page of a query. -/
def pageSql (v : Vendor) (sql : String) (p : Page) : String :=
  (v.cut p).render sql

end Vendor

end NamedSql
