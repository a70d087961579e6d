/-!
# White space

The characters with the Unicode property White_Space, and the operations on text that depend on
nothing else: trimming, and cutting a text into lines.
-/

namespace NamedSql.Text

/-- The 25 characters with the property White_Space. -/
def isBlank (c : Char) : Bool :=
  let n := c.toNat
  (9 ≤ n && n ≤ 13) || n == 32 || n == 0x85 || n == 0xA0 || n == 0x1680
    || (0x2000 ≤ n && n ≤ 0x200A) || n == 0x2028 || n == 0x2029 || n == 0x202F
    || n == 0x205F || n == 0x3000

theorem isBlank_of_isWhitespace {c : Char} (h : c.isWhitespace = true) : isBlank c = true := by
  simp only [Char.isWhitespace, Bool.or_eq_true, decide_eq_true_eq] at h
  rcases h with ((h | h) | h) | h <;> subst h <;> decide

/-- The visible ASCII characters are not white space. -/
theorem isBlank_of_between {a b c : Char} (ha : a ≤ c) (hb : c ≤ b) (hlow : 32 < a.toNat) (hhigh : b.toNat < 127) :
    isBlank c = false := by
  have ha : a.toNat ≤ c.toNat := UInt32.le_iff_toNat_le.1 ha
  have hb : c.toNat ≤ b.toNat := UInt32.le_iff_toNat_le.1 hb
  simp only [isBlank, Bool.or_eq_false_iff, Bool.and_eq_false_iff, beq_eq_false_iff_ne, decide_eq_false_iff_not]
  omega

/-- Drops the white space in front. -/
def trimStart (s : List Char) : List Char :=
  s.dropWhile isBlank

/-- Drops the white space on both sides. -/
def trim (s : List Char) : List Char :=
  (trimStart (trimStart s).reverse).reverse

/-- Whether a line holds white space only. -/
def isBlankLine (s : List Char) : Bool :=
  s.all isBlank

/-- A carriage return in front of a line feed belongs to the line's end. -/
def dropReturn (line : List Char) : List Char :=
  match line.reverse with
  | '\r' :: r => r.reverse
  | _ => line

/-- `cutLines acc s` cuts `acc.reverse ++ s` at its line feeds, where `acc` holds none. A line feed
at the end closes the last line and opens no other. -/
def cutLines (acc : List Char) : List Char → List (List Char)
  | [] => if acc.isEmpty then [] else [acc.reverse]
  | '\n' :: s => dropReturn acc.reverse :: cutLines [] s
  | c :: s => cutLines (c :: acc) s

/-- The lines of a text, without their ends. -/
def lines (s : List Char) : List (List Char) :=
  cutLines [] s

/-- An ASCII letter as a small one, any other character as it is. -/
def foldAscii (c : Char) : Char :=
  c.toLower

/-- Equality of texts up to the case of ASCII letters. -/
def sameIgnoringCase (s t : List Char) : Bool :=
  s.map foldAscii == t.map foldAscii

end NamedSql.Text
