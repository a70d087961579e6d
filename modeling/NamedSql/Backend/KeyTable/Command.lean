import NamedSql.Backend.KeyTable
import NamedSql.Backend.KeyTable.Pattern

/-!
# Statements on a table of keys and values

The statements that the table understands: a few queries, which may be cut and counted, changes of
rows, and the control of transactions. `Command.ofSql` reads them, `Query.run` answers the queries.
-/

namespace NamedSql.KeyTable

/-- Where the rows of a query come from. -/
inductive Source where
  | table
  | valueOf
  | keysAmong (count : Nat)
  | keysLike (escape : Option Char)
  | given
  | one
deriving DecidableEq, Repr

/-- The part of the rows that a query selects. -/
structure Slice where
  limit : Option Nat
  skip : Nat
deriving DecidableEq, Repr

/-- A query for rows or for their number. -/
structure Query where
  source : Source
  slice : Option Slice
  counted : Bool
deriving DecidableEq, Repr

inductive Command where
  | query (q : Query)
  | change (c : Change)
  | begin
  | commit
  | rollback
deriving DecidableEq, Repr

/-! ### Reading SQL -/

/-- A text up to a mark and what follows the mark. -/
def cutAt? (mark : List Char) : List Char → Option (List Char × List Char)
  | [] => none
  | c :: s =>
    match mark.isPrefixOf? (c :: s) with
    | some rest => some ([], rest)
    | none => (cutAt? mark s).map fun (front, rest) => (c :: front, rest)

/-- What stands between a given start and a given end. -/
def between? (first last s : List Char) : Option (List Char) :=
  (first.isPrefixOf? s).bind last.isSuffixOf?

/-- The number of the placeholders that make up a list. -/
def placeholderCount? : List Char → Option Nat
  | ['?'] => some 1
  | '?' :: ',' :: ' ' :: s => (placeholderCount? s).map (· + 1)
  | _ => none

/-- The escape character behind a pattern, if there is one. -/
def escapeOf? (s : List Char) : Option (Option Char) :=
  if s.isEmpty then some none
  else
    match between? " ESCAPE '".toList ['\''] s with
    | some [c] => some (some c)
    | _ => none

def number? (s : List Char) : Option Nat :=
  if !s.isEmpty && s.all Decimal.isDigit then some (Decimal.value s) else none

/-- The number of rows that a limit allows; -1 allows all. -/
def limit? (s : List Char) : Option (Option Nat) :=
  if s == "-1".toList then some none else (number? s).map some

def Slice.ofSql? (s : List Char) : Option Slice :=
  match cutAt? " OFFSET ".toList s with
  | some (count, skip) => do pure ⟨← limit? count, ← number? skip⟩
  | none => (limit? s).map fun limit => ⟨limit, 0⟩

/-- Why a text is no statement. A word that stands in the wrong place, and a word that is none, come
with the text in front of them. -/
inductive Rejection where
  | misplaced (before word : List Char)
  | unreadable (before word : List Char)
  | tooManyPlaceholders (before : List Char)
  | unknownTable
  | unknownStatement
deriving DecidableEq, Repr

/-- The same behind a further text. -/
def Rejection.behind (front : List Char) : Rejection → Rejection
  | misplaced before word => misplaced (front ++ before) word
  | unreadable before word => unreadable (front ++ before) word
  | tooManyPlaceholders before => tooManyPlaceholders (front ++ before)
  | r => r

/-- The fault of a text at one of its words, whose place counts bytes. -/
def faultAt (sql : String) (before : List Char) (message : List Char) : NativeFault :=
  ⟨none, -1, String.ofList message ++ " in " ++ sql ++ " at offset "
    ++ toString (String.ofList before).utf8ByteSize⟩

def Rejection.fault (sql : String) : Rejection → NativeFault
  | misplaced before word =>
    faultAt sql before ("near \"".toList ++ word ++ "\": syntax error".toList)
  | unreadable before word =>
    faultAt sql before ("unrecognized token: \"".toList ++ word ++ ['"'])
  | tooManyPlaceholders before => faultAt sql before "too many SQL variables".toList
  | unknownTable => ⟨none, 1, "no such table: missing"⟩
  | unknownStatement => ⟨none, 1, "no such statement"⟩

def Change.ofSql? (s : List Char) : Option Change :=
  if s == "INSERT INTO kv (k, v) VALUES (?, ?)".toList then some .insert
  else if s == "UPDATE kv SET v = ? WHERE k = ?".toList then some .update
  else if s == "DELETE FROM kv WHERE k = ?".toList then some .delete
  else none

/-- The word that begins a change of data. -/
def changeWord? (s : List Char) : Option (List Char) :=
  ["INSERT".toList, "UPDATE".toList, "DELETE".toList].find? (·.isPrefixOf s)

/-- The number of placeholders that a statement may have. -/
def mostPlaceholders : Nat :=
  32766

/-- What stands in front of the placeholders of a list. -/
def listMark : List Char :=
  "SELECT k FROM kv WHERE k IN (".toList

/-- The keys of a list with `count` placeholders, each of them three characters behind the one
before. -/
def Source.ofList (list : List Char) (count : Nat) : Except Rejection Source :=
  if mostPlaceholders < count then
    .error (.tooManyPlaceholders (listMark ++ list.take (3 * mostPlaceholders)))
  else .ok (.keysAmong count)

def Source.ofSql (s : List Char) : Except Rejection Source :=
  if s == "SELECT k, v FROM kv ORDER BY k".toList then .ok .table
  else if s == "SELECT v FROM kv WHERE k = ?".toList then .ok .valueOf
  else if s == "SELECT ? AS a, ? AS b".toList then .ok .given
  else if s == "SELECT 1".toList then .ok .one
  else if s == "SELECT * FROM missing".toList then .error .unknownTable
  else
    match between? listMark ") ORDER BY k".toList s with
    | some list => (placeholderCount? list).elim (.error .unknownStatement) (Source.ofList list)
    | none =>
      let clause := between? "SELECT k FROM kv WHERE v LIKE ?".toList " ORDER BY k".toList s
      (clause.bind escapeOf?).elim (.error .unknownStatement) fun escape => .ok (.keysLike escape)

/-- What stands between a query and its limit. -/
def limitMark : List Char :=
  " LIMIT ".toList

/-- Reads a query that is not counted. Only rows can be limited, not the changes of a statement. -/
def readRows (s : List Char) : Except Rejection Query :=
  match cutAt? limitMark s with
  | none => (Source.ofSql s).map fun source => ⟨source, none, false⟩
  | some (query, slice) =>
    if (Change.ofSql? query).isSome then .error (.misplaced (query ++ [' ']) "LIMIT".toList)
    else
      (Source.ofSql query).bind fun source =>
        match Slice.ofSql? slice with
        | some slice => .ok ⟨source, some slice, false⟩
        | none => .error .unknownStatement

/-- What stands in front of a query that is counted. -/
def countMark : List Char :=
  "SELECT COUNT(*) AS cnt FROM (".toList

/-- Reads a query. The changes of a statement cannot be counted: its first word is one too many. -/
def Query.ofSql (s : List Char) : Except Rejection Query :=
  match between? countMark ") AS sub".toList s with
  | none => readRows s
  | some query =>
    match changeWord? query with
    | some word => .error (.misplaced countMark word)
    | none =>
      ((readRows query).map fun q => { q with counted := true }).mapError (·.behind countMark)

/-- Reads a statement. A quote at the end opens a literal that nothing closes. -/
def Command.read (s : List Char) : Except Rejection Command :=
  if s == "BEGIN".toList then .ok .begin
  else if s == "COMMIT".toList then .ok .commit
  else if s == "ROLLBACK".toList then .ok .rollback
  else if " ESCAPE '".toList.isSuffixOf s then .error (.unreadable s.dropLast ['\''])
  else
    match Change.ofSql? s with
    | some c => .ok (.change c)
    | none => (Query.ofSql s).map .query

/-- The statement of a SQL text, which ends at a character of code zero. -/
def Command.ofSql (sql : String) : Except NativeFault Command :=
  (Command.read (sql.toList.takeWhile (· != '\x00'))).mapError (·.fault sql)

/-! ### Answering queries -/

def Source.width : Source → Nat
  | table => 0
  | valueOf => 1
  | keysAmong count => count
  | keysLike _ => 1
  | given => 2
  | one => 0

/-- The number of placeholders of a statement. -/
def Command.width : Command → Nat
  | query q => q.source.width
  | change c => c.width
  | _ => 0

def Source.columns : Source → List String
  | table => ["k", "v"]
  | valueOf => ["v"]
  | keysAmong _ => ["k"]
  | keysLike _ => ["k"]
  | given => ["a", "b"]
  | one => ["1"]

def Query.columns (q : Query) : List String :=
  if q.counted then ["cnt"] else q.source.columns

/-- The rows of a source with its values. -/
def Source.rows (t : KeyTable) (values : List Value) : Source → List (List Value)
  | table => t.map fun r => [.integer r.1, r.2]
  | valueOf => (((values.head?.bind key?).bind t.get?).map fun v => [v]).toList
  | keysAmong _ =>
    let keys := values.filterMap key?
    (t.filter fun r => keys.contains r.1).map fun r => [.integer r.1]
  | keysLike escape =>
    (t.filter fun r => matchesLike escape (values.headD .null) r.2).map fun r => [.integer r.1]
  | given => [values]
  | one => [[.integer 1]]

/-- Cuts a slice out of rows. The numbers of a slice must be integers of the database. -/
def Slice.cut (s : Slice) (rows : List (List Value)) : Except NativeFault (List (List Value)) :=
  if maxInteger < (s.limit.getD 0 : Int) ∨ maxInteger < (s.skip : Int) then .error mismatch
  else
    .ok (match s.limit with
      | some n => (rows.drop s.skip).take n
      | none => rows.drop s.skip)

def tooComplex : NativeFault :=
  ⟨none, 1, "LIKE or GLOB pattern too complex"⟩

/-- Whether a source has a pattern that is too long, which shows when it is first used. -/
def Source.isTooComplex (t : KeyTable) (values : List Value) : Source → Bool
  | keysLike _ => !t.isEmpty && isTooLong (values.headD .null)
  | _ => false

/-- The rows of a query. -/
def Query.run (q : Query) (t : KeyTable) (values : List Value) :
    Except NativeFault (List (List Value)) := do
  let rows := q.source.rows t values
  let rows ←
    match q.slice with
    | some s => s.cut rows
    | none => pure rows
  if q.source.isTooComplex t values then .error tooComplex
  else pure (if q.counted then [[.integer (Int64.ofNat rows.length)]] else rows)

end NamedSql.KeyTable
