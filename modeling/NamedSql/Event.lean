/-!
# Events

What a session and its statements report about their work.
-/

namespace NamedSql

inductive Level where
  | debug
  | info
  | warn
deriving DecidableEq, Repr

namespace Level

def name : Level → String
  | debug => "DEBUG"
  | info => "INFO"
  | warn => "WARN"

def rank : Level → Nat
  | debug => 0
  | info => 1
  | warn => 2

/-- Whether events of the level are kept when those below `least` are not. -/
def reaches (least level : Level) : Bool :=
  least.rank ≤ level.rank

end Level

inductive Detail where
  | text (s : String)
  | number (n : Int)
  | flag (b : Bool)
deriving DecidableEq, Repr

structure Event where
  level : Level
  message : String
  details : List (String × Detail)
deriving DecidableEq, Repr

namespace Event

/-- A detail that may be absent. -/
def detail? (name : String) (d : Option Detail) : List (String × Detail) :=
  match d with
  | some d => [(name, d)]
  | none => []

end Event

end NamedSql
