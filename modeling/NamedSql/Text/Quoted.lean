import NamedSql.Text.Visible

/-!
# Quoted texts

A text between two marks, in which the mark itself, the backslash and everything that cannot be seen
is written by an escape.
-/

namespace NamedSql.Text

/-- A character within marks. -/
def escapeIn (mark c : Char) : List Char :=
  if c == mark || c == '\\' then ['\\', c]
  else
    match c with
    | '\x00' => ['\\', '0']
    | '\t' => ['\\', 't']
    | '\n' => ['\\', 'n']
    | '\r' => ['\\', 'r']
    | c =>
      if isVisible c then [c]
      else ['\\', 'u', '\x7b'] ++ Nat.toDigits 16 c.toNat ++ ['\x7d']

/-- A text between marks. -/
def quote (mark : Char) (s : List Char) : List Char :=
  mark :: s.flatMap (escapeIn mark) ++ [mark]

end NamedSql.Text
