/-!
# LIKE

What a LIKE pattern matches. A percent sign stands for any text and an underscore for any character;
behind an escape character every character stands for itself. `Like.isMatch` decides whether a text
matches as a whole.
-/

namespace NamedSql.Like

/-- What a piece of a pattern stands for. -/
inductive Piece where
  | char (c : Char)
  | anyChar
  | anyText
deriving DecidableEq, Repr

/-- The pieces of a pattern. One that ends in its escape character has none. -/
def pieces (escape : Option Char) : List Char → Option (List Piece)
  | [] => some []
  | c :: s =>
    if escape = some c then
      match s with
      | [] => none
      | d :: s => (pieces escape s).map (.char d :: ·)
    else if c = '%' then (pieces escape s).map (.anyText :: ·)
    else if c = '_' then (pieces escape s).map (.anyChar :: ·)
    else (pieces escape s).map (.char c :: ·)

/-- What is left of a text behind each of its first parts, the empty and the whole one included. -/
def rests : List Char → List (List Char)
  | [] => [[]]
  | c :: s => (c :: s) :: rests s

/-- Whether a text consists of what the pieces stand for, under an equality of characters. -/
def accepts (same : Char → Char → Bool) : List Piece → List Char → Bool
  | [], s => s.isEmpty
  | .char c :: p, d :: s => same c d && accepts same p s
  | .anyChar :: p, _ :: s => accepts same p s
  | .anyText :: p, s => (rests s).any (accepts same p ·)
  | _ :: _, [] => false

/-- Whether a text matches a pattern. -/
def isMatch (same : Char → Char → Bool) (escape : Option Char) (pattern s : List Char) : Bool :=
  match pieces escape pattern with
  | some p => accepts same p s
  | none => false

end NamedSql.Like
