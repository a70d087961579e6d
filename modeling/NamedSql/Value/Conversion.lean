import NamedSql.Failure
import NamedSql.Text.Utf8

/-!
# Conversion of values

The category of a value selects the converter, and the converter knows which forms it can produce.
`Converters` is the set of categories with a converter; NULL needs none and stays NULL.
-/

namespace NamedSql

open Text

/-- A text in one of the usual spellings of a truth value. -/
def boolean? (s : List Char) : Option Bool :=
  let is (t : String) : Bool := sameIgnoringCase s t.toList
  if is "true" || is "t" || is "1" || is "y" || is "yes" then some true
  else if is "false" || is "f" || is "0" || is "n" || is "no" then some false
  else none

def minInteger : Int := -9223372036854775808

def maxInteger : Int := 9223372036854775807

/-- An integer of 64 bits, if it is one. -/
def integer? (n : Int) : Option Int64 :=
  if minInteger ≤ n ∧ n ≤ maxInteger then some (Int64.ofInt n) else none

/-- An integral floating point number as an integer. The limits are compared as floating point
numbers, of which the upper one is `2 ^ 63`, and that number is cut to the greatest integer. -/
def Binary64.toInteger? (x : Binary64) : Option Int64 :=
  x.toInt?.bind fun n =>
    if minInteger ≤ n ∧ n ≤ maxInteger + 1 then some (Int64.ofInt (min n maxInteger)) else none

namespace Kind

/-- The forms that the converter of a category offers. -/
def supports : Kind → Representation → Bool
  | .numeric, r => r == .integer || r == .float || r == .text || r == .boolean || r == .timestamp
  | .boolean, r => r == .boolean || r == .integer || r == .text
  | .text, _ => true
  | .bytes, r => r == .bytes || r == .text
  | .date, r => r == .date || r == .timestamp || r == .text
  | .timestamp, r => r == .timestamp || r == .date || r == .text || r == .integer
  | .json, r => r == .json || r == .text

/-- A number in another form. An integer as a timestamp counts milliseconds. -/
def convertNumeric? : Value → Representation → Option Value
  | .integer n, .integer => some (.integer n)
  | .integer n, .float => some (.float (Binary64.ofInt n.toInt))
  | .integer n, .text => some (.text (toString n.toInt))
  | .integer n, .boolean => some (.boolean (n.toInt != 0))
  | .integer n, .timestamp => (Timestamp.ofMillis? n.toInt).map .timestamp
  | .float x, .float => some (.float x)
  | .float x, .integer => x.toInteger?.map .integer
  | .float x, .text => some (.text (String.ofList x.render))
  | .float x, .boolean => some (.boolean (!x.isZero))
  | _, _ => none

def convertBoolean? : Value → Representation → Option Value
  | .boolean b, .boolean => some (.boolean b)
  | .boolean b, .integer => some (.integer (if b then 1 else 0))
  | .boolean b, .text => some (.text (Value.ofBool b))
  | _, _ => none

/-- A text in another form. White space around it does not count, except within a document, whose
grammar has its own. -/
def convertText? : Value → Representation → Option Value
  | .text s, .text => some (.text s)
  | .text s, .integer => ((Decimal.toInt? (trim s.toList)).bind integer?).map .integer
  | .text s, .float => (Binary64.ofText? (trim s.toList)).map .float
  | .text s, .boolean => (boolean? (trim s.toList)).map .boolean
  | .text s, .bytes => some (.blob (utf8Bytes s))
  | .text s, .date => (Date.ofText? (trim s.toList)).map .date
  | .text s, .timestamp => (Timestamp.ofText? (trim s.toList)).map .timestamp
  | .text s, .json => (Json.ofText? s.toList).map .json
  | _, _ => none

def convertBytes? : Value → Representation → Option Value
  | .blob b, .bytes => some (.blob b)
  | .blob b, .text => (ofUtf8? b).map .text
  | _, _ => none

def convertDate? : Value → Representation → Option Value
  | .date d, .date => some (.date d)
  | .date d, .timestamp => some (.timestamp (Timestamp.midnight d))
  | .date d, .text => some (.text (String.ofList d.render))
  | _, _ => none

def convertTimestamp? : Value → Representation → Option Value
  | .timestamp t, .timestamp => some (.timestamp t)
  | .timestamp t, .date => some (.date t.date)
  | .timestamp t, .text => some (.text (String.ofList t.render))
  | .timestamp t, .integer => some (.integer (Int64.ofInt t.toMillis))
  | _, _ => none

def convertJson? : Value → Representation → Option Value
  | .json j, .json => some (.json j)
  | .json j, .text => some (.text (String.ofList j.render))
  | _, _ => none

/-- The converter of a category, which knows no values of other categories. -/
def convert? : Kind → Value → Representation → Option Value
  | .numeric => convertNumeric?
  | .boolean => convertBoolean?
  | .text => convertText?
  | .bytes => convertBytes?
  | .date => convertDate?
  | .timestamp => convertTimestamp?
  | .json => convertJson?

/-- The converter's answer, or the failure that names the value's category and the form. -/
def convert (k : Kind) (v : Value) (target : Representation) : Except Failure Value :=
  match k.convert? v target with
  | some w => .ok w
  | none => .error (.conversion v.kind? target)

end Kind

/-- A set of converters, given by their categories. -/
structure Converters where
  kinds : List Kind
deriving DecidableEq, Repr

namespace Converters

def empty : Converters := ⟨[]⟩

/-- A converter for every category. -/
def standard : Converters := ⟨Kind.all⟩

/-- Adds a converter, in place of one for the same category. -/
def register (c : Converters) (k : Kind) : Converters :=
  if c.kinds.contains k then c else ⟨c.kinds ++ [k]⟩

def ofList (kinds : List Kind) : Converters :=
  kinds.foldl register empty

def supports (c : Converters) (k : Kind) (target : Representation) : Bool :=
  c.kinds.contains k && k.supports target

/-- A value in another form, through the converter of its category. -/
def convert (c : Converters) (v : Value) (target : Representation) : Except Failure Value :=
  match v.kind? with
  | none => .ok .null
  | some k => if c.supports k target then k.convert v target else .error (.conversion v.kind? target)

/-- The names of the categories in alphabetical order. -/
def names (c : Converters) : List String :=
  (c.kinds.map Kind.name).mergeSort fun a b => a ≤ b

end Converters

end NamedSql
