import NamedSql.Value.Conversion
import NamedSql.Vendor.OrderBy
import NamedSql.Vendor.Paging

/-!
# Vendors

What differs between the families of databases, apart from pages: the SQL for counts, sequences,
transactions and probes, the tables by which errors are told apart, and the forms in which values are
stored.
-/

namespace NamedSql

namespace Vendor

def all : List Vendor :=
  [postgres, sqlite, mysql, mssql, oracle]

/-- The name in settings. -/
def name : Vendor → String
  | postgres => "postgres"
  | sqlite => "sqlite"
  | mysql => "mysql"
  | mssql => "mssql"
  | oracle => "oracle"

/-- The vendor of a name. -/
def ofName? (s : String) : Option Vendor :=
  all.find? fun v => v.name == s

/-- The vendor of a name in any case. -/
def ofNameIgnoringCase? (s : String) : Option Vendor :=
  all.find? fun v => Text.sameIgnoringCase v.name.toList s.toList

/-! ### SQL -/

def hasSequences : Vendor → Bool
  | postgres | mssql | oracle => true
  | sqlite | mysql => false

/-- The SQL that counts the rows of a query. SQL Server refuses an ORDER BY within it, Oracle an AS in
front of its name. -/
def countSql (v : Vendor) (sql : String) : String :=
  match v with
  | mssql => "SELECT COUNT(*) AS cnt FROM (" ++ dropOrderBy sql ++ ") AS sub"
  | oracle => "SELECT COUNT(*) AS cnt FROM (" ++ sql ++ ") sub"
  | _ => "SELECT COUNT(*) AS cnt FROM (" ++ sql ++ ") AS sub"

/-- The SQL that shows that the connection is alive. -/
def probeSql : Vendor → String
  | oracle => "SELECT 1 FROM DUAL"
  | _ => "SELECT 1"

/-- The SQL for the next value of a sequence. -/
def nextValueSql? (v : Vendor) (sequence : String) : Option String :=
  match v with
  | postgres => some ("SELECT nextval('" ++ sequence ++ "')")
  | mssql => some ("SELECT NEXT VALUE FOR " ++ sequence)
  | oracle => some ("SELECT " ++ sequence ++ ".NEXTVAL FROM DUAL")
  | sqlite | mysql => none

/-- The SQL that opens a transaction; with Oracle one is always open. -/
def beginSql? : Vendor → Option String
  | postgres | sqlite => some "BEGIN"
  | mysql => some "START TRANSACTION"
  | mssql => some "BEGIN TRANSACTION"
  | oracle => none

/-! ### Errors -/

/-- A pattern for errors; what is absent matches everything. -/
structure Signature where
  state : Option String
  code : Option Int
deriving DecidableEq, Repr

def Signature.isMatch (s : Signature) (f : NativeFault) : Bool :=
  (match s.state with
    | some state => f.state == some state
    | none => true)
  && (match s.code with
    | some code => f.code == code
    | none => true)

/-- Violated primary keys and unique indexes. -/
def duplicateKeys : Vendor → List Signature
  | postgres => [⟨some "23505", none⟩]
  | sqlite => [⟨none, some 1555⟩, ⟨none, some 2067⟩]
  | mysql => [⟨some "23000", some 1062⟩]
  | mssql => [⟨some "23000", some 2627⟩, ⟨some "23000", some 2601⟩]
  | oracle => [⟨some "23000", some 1⟩]

/-- Statements that ran out of time or were cancelled, and locks that were not given in time. -/
def timeouts : Vendor → List Signature
  | postgres => [⟨some "57014", none⟩, ⟨some "55P03", none⟩]
  | sqlite => [⟨none, some 5⟩, ⟨none, some 261⟩, ⟨none, some 517⟩, ⟨none, some 9⟩]
  | mysql => [⟨some "HY000", some 3024⟩, ⟨some "HY000", some 1205⟩, ⟨some "70100", some 1317⟩]
  | mssql => [⟨some "HYT00", none⟩, ⟨none, some (-2)⟩, ⟨none, some 1222⟩]
  | oracle => [⟨some "72000", some 1013⟩, ⟨some "61000", some 30006⟩]

def isDuplicateKey (v : Vendor) (f : NativeFault) : Bool :=
  v.duplicateKeys.any (·.isMatch f)

def isTimeout (v : Vendor) (f : NativeFault) : Bool :=
  v.timeouts.any (·.isMatch f)

/-- The failure of a call on the database, by the vendor's tables. -/
def failure (v : Vendor) (sql : String) (parameters : Option String) (f : NativeFault) : Failure :=
  if v.isDuplicateKey f then .duplicateKey ⟨sql, parameters, f⟩
  else if v.isTimeout f then .timeout ⟨sql, parameters, some f⟩
  else .access ⟨sql, parameters, f⟩

/-! ### Storage -/

/-- The form in which a category is stored, where it is not the value's own. -/
def storage? : Vendor → Kind → Option Representation
  | sqlite, .boolean => some .integer
  | sqlite, .date | sqlite, .timestamp | sqlite, .json => some .text
  | mysql, .json | mssql, .json => some .text
  | oracle, .boolean => some .integer
  | oracle, .json => some .text
  | _, _ => none

/-- A value before it is written: Oracle has no empty text but NULL. -/
def adjust (v : Vendor) (w : Value) : Value :=
  match v, w with
  | oracle, .text s => if s.isEmpty then .null else .text s
  | _, w => w

/-- A value in a form that is asked for, to be written. -/
def toStorage (v : Vendor) (w : Value) (target : Representation) : Except Failure Value :=
  Converters.standard.convert (v.adjust w) target

/-- A stored value in a form that is asked for. -/
def ofStorage (w : Value) (target : Representation) : Except Failure Value :=
  Converters.standard.convert w target

/-- A value as the database gets it. -/
def toBound (v : Vendor) (w : Value) : Except Failure Value :=
  let w := v.adjust w
  match w.kind?.bind v.storage? with
  | some target => Converters.standard.convert w target
  | none => .ok w

end Vendor

end NamedSql
