import NamedSql.Proofs.Grammar

/-!
# Inside and outside literals

A text is read with each quote opening or closing a literal. A doubled quote closes one and opens
another at once, so between the quotes this tells the same as the grammar: a literal is passed over
(`questions_literal`), and any other character is outside (`questions_cons`).
-/

namespace NamedSql

/-- Whether a literal is open behind a text, if one was open in front of it or not. -/
def quotedAfter (quoted : Bool) (s : List Char) : Bool :=
  s.foldl (fun q c => if c = '\'' then !q else q) quoted

/-- The places of the question marks outside literals in a text that starts at the place `n`. -/
def questions (quoted : Bool) (n : Nat) : List Char → List Nat
  | [] => []
  | c :: s =>
    if c = '\'' then questions (!quoted) (n + 1) s
    else if c = '?' ∧ quoted = false then n :: questions quoted (n + 1) s
    else questions quoted (n + 1) s

@[simp] theorem quotedAfter_nil (q : Bool) : quotedAfter q [] = q := rfl

@[simp] theorem quotedAfter_cons (q : Bool) (c : Char) (s : List Char) :
    quotedAfter q (c :: s) = quotedAfter (if c = '\'' then !q else q) s := rfl

theorem quotedAfter_append (q : Bool) (s t : List Char) :
    quotedAfter q (s ++ t) = quotedAfter (quotedAfter q s) t :=
  List.foldl_append ..

theorem quotedAfter_plain {s : List Char} (h : '\'' ∉ s) (q : Bool) : quotedAfter q s = q := by
  induction s with
  | nil => rfl
  | cons c s ih =>
    obtain ⟨hc, hs⟩ := not_or.1 (mt List.mem_cons.2 h)
    rw [quotedAfter_cons, if_neg (Ne.symm hc), ih hs]

@[simp] theorem questions_nil (q : Bool) (n : Nat) : questions q n [] = [] := rfl

theorem questions_cons {c : Char} (hc : c ≠ '\'') (q : Bool) (n : Nat) (s : List Char) :
    questions q n (c :: s) = (if c = '?' ∧ q = false then [n] else []) ++ questions q (n + 1) s := by
  rw [questions, if_neg hc]
  split <;> rfl

theorem questions_quote (q : Bool) (n : Nat) (s : List Char) :
    questions q n ('\'' :: s) = questions (!q) (n + 1) s := by
  rw [questions, if_pos rfl]

theorem questions_append (q : Bool) (n : Nat) (s t : List Char) :
    questions q n (s ++ t) = questions q n s ++ questions (quotedAfter q s) (n + s.length) t := by
  induction s generalizing q n with
  | nil => rfl
  | cons c s ih =>
    rw [List.cons_append, quotedAfter_cons, List.length_cons, Nat.add_comm s.length, ← Nat.add_assoc]
    by_cases hc : c = '\''
    · rw [hc, questions_quote, questions_quote, ih, if_pos rfl]
    · rw [questions_cons hc, questions_cons hc, ih, if_neg hc, List.append_assoc]

theorem questions_plain {s : List Char} (h : '?' ∉ s) (q : Bool) (n : Nat) : questions q n s = [] := by
  induction s generalizing q n with
  | nil => rfl
  | cons c s ih =>
    obtain ⟨hc, hs⟩ := not_or.1 (mt List.mem_cons.2 h)
    by_cases hq : c = '\''
    · rw [hq, questions_quote, ih hs]
    · rw [questions_cons hq, ih hs, if_neg (by simp [Ne.symm hc])]
      rfl

/-- Whether there are question marks outside literals does not depend on where the text starts. -/
theorem questions_eq_nil {q : Bool} {n : Nat} {s : List Char} (h : questions q n s = []) (m : Nat) :
    questions q m s = [] := by
  induction s generalizing q n m with
  | nil => rfl
  | cons c s ih =>
    by_cases hc : c = '\''
    · rw [hc, questions_quote] at h ⊢
      exact ih h _
    · rw [questions_cons hc] at h ⊢
      obtain ⟨h1, h2⟩ := List.append_eq_nil_iff.1 h
      rw [ih h2]
      split
      · rw [if_pos ‹_›] at h1; cases h1
      · rfl

namespace Template

theorem LiteralBody.quotedAfter {b : List Char} (h : LiteralBody b) : quotedAfter true b = true := by
  induction h with
  | nil => rfl
  | char hc _ ih => rw [quotedAfter_cons, if_neg hc, ih]
  | quotes _ ih => exact ih

theorem LiteralBody.questions {b : List Char} (h : LiteralBody b) (n : Nat) : questions true n b = [] := by
  induction h generalizing n with
  | nil => rfl
  | char hc _ ih => rw [questions_cons hc, ih]; simp
  | quotes _ ih => rw [questions_quote, questions_quote, Bool.not_not, ih]

namespace Literal
variable {l s : List Char}

theorem quotedAfter (h : Literal l s) : s = [] ∨ quotedAfter false l = false := by
  cases h with
  | closed hb _ => exact .inr (by rw [quotedAfter_append, quotedAfter_cons]; simp [hb.quotedAfter])
  | unended _ => exact .inl rfl

theorem questions (h : Literal l s) (n : Nat) : questions false n l = [] := by
  cases h with
  | closed hb _ =>
    rw [questions_append, questions_quote, Bool.not_false, hb.questions]
    rfl
  | unended hb => rw [questions_quote, Bool.not_false, hb.questions]

end Literal

/-- A literal has no question marks outside literals, and what follows it is outside. -/
theorem questions_literal {l s : List Char} (h : Literal l s) (n : Nat) :
    questions false n (l ++ s) = questions false (n + l.length) s := by
  rw [questions_append, h.questions, List.nil_append]
  rcases h.quotedAfter with rfl | hq
  · rfl
  · rw [hq]

end Template

end NamedSql
