import NamedSql.Text.Quoted
import NamedSql.Value

/-!
# Failures

Every way in which an operation can fail, as a cause that keeps what the message needs.
`Failure.message` words them all.
-/

namespace NamedSql

/-- The families of databases. -/
inductive Vendor where
  | postgres
  | sqlite
  | mysql
  | mssql
  | oracle
deriving DecidableEq, Repr

/-- An error that a database reports. State and code are not read but compared with the vendor's
tables. -/
structure NativeFault where
  state : Option String
  code : Int
  message : String
deriving DecidableEq, Repr

def NativeFault.render (f : NativeFault) : String :=
  match f.state with
  | some state => "[" ++ state ++ "/" ++ toString f.code ++ "] " ++ f.message
  | none => "[" ++ toString f.code ++ "] " ++ f.message

/-- Why a template is refused. -/
inductive TemplateFault where
  | noName (raw : String)
  | strayPercent (raw : String)
  | badSubscript
deriving DecidableEq, Repr

/-- Why parameters do not fit a template. -/
inductive BindingFault where
  | missing (name : String) (slot : Nat)
  | sequenceForScalar (name : String)
  | subscriptOutOfRange (subscript : Nat) (name : String) (size : Nat)
  | needsSequence (name : String) (subscript : Nat)
  | emptySequence (name : String)
  | noSequenceMarker (name : String)
  | notText (name : String) (value : Value)
  | otherText (sql : String)

/-- A call on the database that failed: the statement, its parameters if they may be shown, and the
database's error. -/
structure AccessFault where
  sql : String
  parameters : Option String
  native : NativeFault
deriving DecidableEq, Repr

/-- A transaction out of time, with the database's error if that told so. -/
structure TimeoutFault where
  sql : String
  parameters : Option String
  cause : Option NativeFault
deriving DecidableEq, Repr

/-- An operation that is never allowed in the way it was used. -/
inductive UsageFault where
  | transactionRunning (session : String)
  | noTransaction (sql session : String)
  | noSequences (vendor : Vendor)
  | noColumn (name : String) (columns : List String)
  | columnOutOfRange (index size : Nat)
  | pagedStatement (statement : String)
  | sessionExists (name : String)
  | refused (reason : String)
deriving DecidableEq, Repr

/-- An operation that comes too late or finds nothing. -/
inductive StateFault where
  | sessionTerminated (session : String)
  | handleGone (handle : Nat) (session : String)
  | statementClosed (statement : String)
  | memoClosed
  | noSession (name : String)
  | noSequenceRow (sql : String)
  | nullSequence (sql : String)
deriving DecidableEq, Repr

/-- A setting that is refused. -/
inductive SettingFault where
  | badEscape (c : Char)
  | badTimeout (seconds : Int)
  | zeroStart
  | zeroCapacity
  | badLifetime
  | malformed
deriving DecidableEq, Repr

/-- A resource or a statement that the catalog cannot take in or find. -/
inductive CatalogFault where
  | noHeader (resource : String) (line : Nat)
  | noText (resource : String) (line : Nat) (statement : String)
  | duplicate (statement resource : String)
  | unknownResource (resource : String)
  | unknownStatement (statement resource : String)
  | noResourceName (path : String)
  | unreadable (path : String)
deriving DecidableEq, Repr

inductive Failure where
  | parse (position : Nat) (fault : TemplateFault)
  | binding (fault : BindingFault)
  | duplicateKey (fault : AccessFault)
  | timeout (fault : TimeoutFault)
  | access (fault : AccessFault)
  | usage (fault : UsageFault)
  | state (fault : StateFault)
  | conversion (source : Option Kind) (target : Representation)
  | setting (fault : SettingFault)
  | catalog (fault : CatalogFault)

def Vendor.title : Vendor → String
  | .postgres => "Postgres"
  | .sqlite => "Sqlite"
  | .mysql => "Mysql"
  | .mssql => "Mssql"
  | .oracle => "Oracle"

def TemplateFault.message : TemplateFault → String
  | .noName raw => "parameter ':" ++ raw ++ "' has no name"
  | .strayPercent raw => "'%' may only lead or trail a parameter name in ':" ++ raw ++ "'"
  | .badSubscript => "array subscript must be '[]' or '[<digits>]'"

def BindingFault.message : BindingFault → String
  | .missing name slot =>
    "no value bound for parameter :" ++ name ++ " (placeholder " ++ toString slot ++ ")"
  | .sequenceForScalar name => "sequence bound to scalar parameter :" ++ name
  | .subscriptOutOfRange subscript name size =>
    "subscript " ++ toString subscript ++ " out of range for :" ++ name ++ " ("
      ++ toString size ++ " elements)"
  | .needsSequence name subscript =>
    "parameter :" ++ name ++ "[" ++ toString subscript ++ "] requires a sequence value"
  | .emptySequence name => "array parameter :" ++ name ++ "[] bound to an empty sequence"
  | .noSequenceMarker name => "no deferred array parameter :" ++ name ++ "[] in template"
  | .notText name value => "like parameter :" ++ name ++ " requires text, got " ++ value.render
  | .otherText sql => "batch entry expands to different SQL than earlier entries: " ++ sql

/-- The statement and its parameters behind an error. -/
def renderCall (sql : String) (parameters : Option String) : String :=
  match parameters with
  | some p => "(sql: " ++ sql ++ "; params: " ++ p ++ ")"
  | none => "(sql: " ++ sql ++ ")"

def AccessFault.message (f : AccessFault) : String :=
  f.native.render ++ " " ++ renderCall f.sql f.parameters

def TimeoutFault.message (f : TimeoutFault) : String :=
  "transaction deadline exceeded " ++ renderCall f.sql f.parameters ++
    match f.cause with
    | some cause => ": " ++ cause.render
    | none => ""

def UsageFault.message : UsageFault → String
  | .transactionRunning session => "transaction already running on '" ++ session ++ "'"
  | .noTransaction sql session => sql ++ " without a running transaction on '" ++ session ++ "'"
  | .noSequences vendor => vendor.title ++ " does not support sequences"
  | .noColumn name columns =>
    "no column '" ++ name ++ "' in row (columns: " ++ String.intercalate ", " columns ++ ")"
  | .columnOutOfRange index size =>
    "column index " ++ toString index ++ " out of range for a row of " ++ toString size ++ " columns"
  | .pagedStatement statement =>
    "statement '" ++ statement ++ "' was created with a select option; use retrieve()"
  | .sessionExists name => "connection '" ++ name ++ "' already registered in this unit of work"
  | .refused reason => reason

def StateFault.message : StateFault → String
  | .sessionTerminated session => "connection context '" ++ session ++ "' has been terminated"
  | .handleGone handle session =>
    "statement handle " ++ toString handle ++ " is no longer open on '" ++ session ++ "'"
  | .statementClosed statement => "statement '" ++ statement ++ "' is closed"
  | .memoClosed => "result cache has been shut down"
  | .noSession name => "no connection named '" ++ name ++ "' in this unit of work"
  | .noSequenceRow sql => "sequence query returned no rows: " ++ sql
  | .nullSequence sql => "sequence query returned NULL: " ++ sql

def SettingFault.message : SettingFault → String
  | .badEscape c =>
    "invalid like escape character " ++ String.ofList (Text.quote '\'' [c])
  | .badTimeout seconds =>
    "transaction timeout must be a positive number of seconds, got " ++ toString seconds
  | .zeroStart => "select start position is 1-based; 0 is not valid"
  | .zeroCapacity => "result cache capacity must be at least 1"
  | .badLifetime => "result cache time-to-live must be positive"
  | .malformed => "invalid engine options: malformed document"

def CatalogFault.message : CatalogFault → String
  | .noHeader resource line =>
    resource ++ ":" ++ toString line ++ ": statement block must start with '#<statement-id>'"
  | .noText resource line statement =>
    resource ++ ":" ++ toString line ++ ": statement '" ++ statement ++ "' has no SQL text"
  | .duplicate statement resource =>
    "duplicate statement id '" ++ statement ++ "' in resource '" ++ resource ++ "'"
  | .unknownResource resource => "unknown resource '" ++ resource ++ "'"
  | .unknownStatement statement resource =>
    "unknown statement '" ++ statement ++ "' in resource '" ++ resource ++ "'"
  | .noResourceName path => "no resource id in path " ++ path
  | .unreadable path => "failed to read " ++ path

def conversionMessage (source : Option Kind) (target : Representation) : String :=
  let source :=
    match source with
    | some kind => kind.name
    | none => "Null"
  "Unsupported conversion from " ++ source ++ " to " ++ target.name

def Failure.message : Failure → String
  | .parse position fault =>
    "Template parse error at byte " ++ toString position ++ ": " ++ fault.message
  | .binding fault => "Parameter binding error: " ++ fault.message
  | .duplicateKey fault => "Duplicate key: " ++ fault.message
  | .timeout fault => "Timeout: " ++ fault.message
  | .access fault => "Database access error: " ++ fault.message
  | .usage fault => "Illegal usage: " ++ fault.message
  | .state fault => "Invalid state: " ++ fault.message
  | .conversion source target => conversionMessage source target
  | .setting fault => "Configuration error: " ++ fault.message
  | .catalog fault => "Template catalog error: " ++ fault.message

/-- The name of the kind of a failure. -/
def Failure.category : Failure → String
  | .parse .. => "Parse"
  | .binding .. => "Binding"
  | .duplicateKey .. => "DuplicateKey"
  | .timeout .. => "Timeout"
  | .access .. => "Access"
  | .usage .. => "IllegalUsage"
  | .state .. => "State"
  | .conversion .. => "UnsupportedConversion"
  | .setting .. => "Config"
  | .catalog .. => "Catalog"

/-- The database's own error behind a failure. -/
def Failure.native? : Failure → Option NativeFault
  | .duplicateKey fault | .access fault => some fault.native
  | .timeout fault => fault.cause
  | _ => none

end NamedSql
