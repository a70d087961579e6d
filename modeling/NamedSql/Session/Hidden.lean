import NamedSql.Session

/-!
# Records without handle numbers

Where several handles are closed at once their order does not matter. Records are compared with the
numbers of the handles hidden.
-/

namespace NamedSql

/-- The start of the text for a handle that is closed, from its end. -/
def closeMark : List Char :=
  "<close handle ".toList.reverse

/-- Replaces the number behind each mark by a star; `before` is what stands in front, from its end. -/
def hideFrom (before : List Char) : List Char → List Char
  | [] => []
  | c :: s =>
    if closeMark.isPrefixOf before && c.isDigit then hideFrom before s
    else if closeMark.isPrefixOf (c :: before) then c :: '*' :: hideFrom (c :: before) s
    else c :: hideFrom (c :: before) s

/-- A text without the numbers of closed handles. -/
def hideHandles (s : String) : String :=
  String.ofList (hideFrom [] s.toList)

/-- A detail without the number of a handle. -/
def Detail.hideHandles (name : String) : Detail → Detail
  | .number n => if name = "handle" then .text "*" else .number n
  | .text s => .text (NamedSql.hideHandles s)
  | d => d

def Event.hideHandles (e : Event) : Event :=
  { e with details := e.details.map fun d => (d.1, d.2.hideHandles d.1) }

/-- A log in which the numbers are hidden from the end of an earlier log on. -/
def Event.hideSince (earlier log : List Event) : List Event :=
  log.take earlier.length ++ (log.drop earlier.length).map hideHandles

end NamedSql
