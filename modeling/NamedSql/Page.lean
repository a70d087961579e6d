import NamedSql.Failure

/-!
# Pages and windows

A `Page` is the part of a result that a statement was made for: from a start position, counted from 1,
and at most `limit` rows. A `Window` is what one execution does about it: how many rows the database
is to produce, how many of them are skipped, and how many are given out. Numbers of rows have 64 bits.
-/

namespace NamedSql

/-- A page; an absent limit means all rows. -/
structure Page where
  start : UInt64
  limit : Option UInt64
deriving DecidableEq, Repr

namespace Page

/-- A limit of zero means no limit. -/
def normalLimit (limit : Option UInt64) : Option UInt64 :=
  limit.filter (0 < ·)

/-- The page from a start position, which is at least 1. -/
def ofStart (start : UInt64) (limit : Option UInt64) : Except Failure Page :=
  if start = 0 then .error (.setting .zeroStart) else .ok ⟨start, normalLimit limit⟩

/-- The page behind a number of rows. -/
def ofOffset (offset : UInt64) (limit : Option UInt64) : Page :=
  ⟨offset + 1, normalLimit limit⟩

/-- The number of rows in front of the page. -/
def offset (p : Page) : UInt64 :=
  p.start - 1

/-- The sum, or the greatest number if it is greater than that. -/
def saturatingAdd (m n : UInt64) : UInt64 :=
  UInt64.ofNat (min (m.toNat + n.toNat) (twoTo 64 - 1))

/-- The number of rows up to the end of the page. -/
def maxRows (p : Page) : Option UInt64 :=
  p.limit.map (saturatingAdd p.offset)

end Page

/-- How a page is asked for: by its start position or by the number of rows in front of it. -/
inductive PageRequest where
  | fromStart (start : UInt64) (limit : Option UInt64)
  | behind (offset : UInt64) (limit : Option UInt64)
deriving DecidableEq, Repr

def PageRequest.page : PageRequest → Except Failure Page
  | .fromStart start limit => Page.ofStart start limit
  | .behind offset limit => .ok (Page.ofOffset offset limit)

structure Window where
  skip : UInt64
  limit : Option UInt64
  maxRows : Option UInt64
deriving DecidableEq, Repr

namespace Window

def all : Window :=
  ⟨0, none, none⟩

/-- The window when the SQL selects the page. -/
def ofSql (p : Page) : Window :=
  ⟨0, p.limit, p.limit⟩

/-- The window when the SQL selects all rows. -/
def ofClient (p : Page) : Window :=
  ⟨p.offset, p.limit, p.maxRows⟩

/-- The window of the first row. -/
def first (w : Window) : Window :=
  let needed := w.skip + 1
  ⟨w.skip, some 1,
    some (match w.maxRows with
      | some cap => min cap needed
      | none => needed)⟩

end Window

end NamedSql
