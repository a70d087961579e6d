import NamedSql.Json
import NamedSql.Template
import NamedSql.Text.Blank
import NamedSql.TimeLimit
import NamedSql.Vendor

/-!
# Settings

What a session is opened with. Settings may be read from a JSON document: an object with any of the
four keys, or an array of at most four values in their order. Keys that are not known are skipped,
whatever they hold; a known one must not come twice.
-/

namespace NamedSql

structure Settings where
  vendor : Vendor
  escape : Char
  logParameters : Bool
  timeout : Option Int
deriving DecidableEq, Repr

namespace Settings

def default : Settings :=
  ⟨.sqlite, '\\', false, none⟩

/-- Settings that can be used: the escape character is neither a quote nor white space, and the time
limit is positive. -/
def validate (s : Settings) : Except Failure Settings := do
  if s.escape == '\'' || Text.isBlank s.escape then
    .error (.setting (.badEscape s.escape))
  match s.timeout with
  | some seconds => checkTimeout seconds
  | none => pure ()
  pure s

open Json

/-- A vendor: its name, or an object with its name and null. -/
def readVendor? : Spelling → Option Vendor
  | .string s => (joinParts? s).bind fun s => Vendor.ofName? (String.ofList s)
  | .object [(key, .null)] => (joinParts? key).bind fun s => Vendor.ofName? (String.ofList s)
  | _ => none

/-- A text of one character. -/
def readEscape? : Spelling → Option Char
  | .string s =>
    match joinParts? s with
    | some [c] => some c
    | _ => none
  | _ => none

def readBoolean? : Spelling → Option Bool
  | .boolean b => some b
  | _ => none

/-- An integer of 64 bits or null. -/
def readTimeout? : Spelling → Option (Option Int)
  | .null => some none
  | .number n =>
    match ofNumeral? n with
    | some (.integer n) => (integer? n).map fun n => some n.toInt
    | _ => none
  | _ => none

/-- The keys of the document. -/
inductive Field where
  | vendor
  | escape
  | logParameters
  | timeout
deriving DecidableEq, Repr

def Field.ofKey? (key : List Char) : Option Field :=
  if key == "family".toList then some .vendor
  else if key == "like_escape".toList then some .escape
  else if key == "log_parameters".toList then some .logParameters
  else if key == "transaction_timeout_secs".toList then some .timeout
  else none

/-- Settings with a field as the document gives it. -/
def withField? (s : Settings) (f : Field) (v : Spelling) : Option Settings :=
  match f with
  | .vendor => (readVendor? v).map fun x => { s with vendor := x }
  | .escape => (readEscape? v).map fun x => { s with escape := x }
  | .logParameters => (readBoolean? v).map fun x => { s with logParameters := x }
  | .timeout => (readTimeout? v).map fun x => { s with timeout := x }

/-- Settings with the members of an object, of which the fields in `seen` came before. -/
def readMembers? (s : Settings) (seen : List Field) :
    List (List StringPart × Spelling) → Option Settings
  | [] => some s
  | (key, v) :: rest => do
    match Field.ofKey? (← joinParts? key) with
    | none => readMembers? s seen rest
    | some f =>
      guard (!seen.contains f)
      readMembers? (← s.withField? f v) (f :: seen) rest

/-- Settings with the items of an array for the given fields. -/
def readItems? (s : Settings) : List Field → List Spelling → Option Settings
  | _, [] => some s
  | [], _ :: _ => none
  | f :: fields, v :: rest => (s.withField? f v).bind (·.readItems? fields rest)

def ofSpelling? : Spelling → Option Settings
  | .object members => readMembers? default [] members
  | .array items => readItems? default [.vendor, .escape, .logParameters, .timeout] items
  | _ => none

/-- The settings of a document, if they can be used. -/
def ofJson (text : String) : Except Failure Settings :=
  match (Spelling.ofText? text.toList).bind ofSpelling? with
  | some s => s.validate
  | none => .error (.setting .malformed)

/-- The template of a text under the escape character of the settings. -/
def parse (s : Settings) (source : String) : Except Failure Template :=
  Template.parse s.escape source

end Settings

end NamedSql
