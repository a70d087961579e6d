/-!
# Trailing ORDER BY clauses

SQL without its last ORDER BY that stands outside quotes and parentheses. `dropOrderBy` is the text up
to there, with the white space in front kept.
-/

namespace NamedSql.OrderBy

/-- The characters of a word. -/
def isWordChar (c : Char) : Bool :=
  c.isAlphanum || c == '_'

/-- White space between words. -/
def isSpace (c : Char) : Bool :=
  c == ' ' || c == '\t' || c == '\n' || c == '\x0c' || c == '\r'

/-- The text behind a keyword, given in small letters, that stands as a whole word at the front. -/
def afterWord? : (keyword : List Char) → List Char → Option (List Char)
  | [], s =>
    match s with
    | [] => some []
    | c :: _ => if isWordChar c then none else some s
  | _ :: _, [] => none
  | k :: ks, c :: s => if c.toLower == k then afterWord? ks s else none

/-- Whether ORDER BY stands at the front. -/
def isOrderBy (s : List Char) : Bool :=
  match afterWord? "order".toList s with
  | none => false
  | some s =>
    match s with
    | [] => false
    | c :: r => isSpace c && (afterWord? "by".toList (r.dropWhile isSpace)).isSome

/-- Where a scan stands: in a literal or a quoted name, between how many open parentheses, and whether
a word has just begun or goes on. -/
structure Place where
  quote : Option Char
  depth : Nat
  inWord : Bool
deriving DecidableEq, Repr

def Place.start : Place :=
  ⟨none, 0, false⟩

/-- The place behind a character. A parenthesis that closes nothing does not count. -/
def Place.next (p : Place) (c : Char) : Place :=
  match p.quote with
  | some q => ⟨if c == q then none else some q, p.depth, isWordChar c⟩
  | none =>
    if c == '\'' || c == '"' then ⟨some c, p.depth, false⟩
    else if c == '(' then ⟨none, p.depth + 1, false⟩
    else if c == ')' then ⟨none, p.depth - 1, false⟩
    else ⟨none, p.depth, isWordChar c⟩

/-- Whether a clause of the outermost level starts at a place in front of `s`. -/
def Place.startsClause (p : Place) (s : List Char) : Bool :=
  p.quote.isNone && p.depth == 0 && !p.inWord && isOrderBy s

/-- The text in front of the last clause, if there is one behind the given place. -/
def beforeLast? (p : Place) : List Char → Option (List Char)
  | [] => none
  | c :: s =>
    match beforeLast? (p.next c) s with
    | some front => some (c :: front)
    | none => if p.startsClause (c :: s) then some [] else none

/-- The text without its trailing clause. -/
def drop (s : List Char) : List Char :=
  (beforeLast? Place.start s).getD s

end NamedSql.OrderBy

namespace NamedSql

/-- SQL without its trailing ORDER BY clause. -/
def dropOrderBy (sql : String) : String :=
  String.ofList (OrderBy.drop sql.toList)

end NamedSql
