import NamedSql.Template
import Mathlib

/-!
# The grammar of templates

What a template consists of, said without the scanner. `Plain p s`: the text `p` is one item of plain
text if the text `s` follows it. `RawMarker.Before m s`: the text of `m` is a marker, well formed or
not, if `s` follows it. Main statement: every text is cut into such items in exactly one way
(`exists_decomposes`, `Decomposes.unique`), so a text is plain text, then markers with the plain text
behind each.
-/

namespace NamedSql.Template

open Decimal

/-! ### Characters -/

/-- The characters of a name: ASCII letters and digits, the underscore and the percent sign. -/
def NameChar (c : Char) : Prop :=
  ('A' ≤ c ∧ c ≤ 'Z') ∨ ('a' ≤ c ∧ c ≤ 'z') ∨ ('0' ≤ c ∧ c ≤ '9') ∨ c = '_' ∨ c = '%'

theorem isNameChar_iff {c : Char} : isNameChar c = true ↔ NameChar c := by
  simp only [isNameChar, Char.isAlphanum, Char.isAlpha, Char.isUpper, Char.isLower, Char.isDigit,
    Bool.or_eq_true, Bool.and_eq_true, decide_eq_true_eq, beq_iff_eq, NameChar, Char.le_def, ge_iff_le,
    or_assoc]

theorem isNameChar_eq_false {c : Char} : isNameChar c = false ↔ ¬ NameChar c := by
  rw [← isNameChar_iff, Bool.not_eq_true]

def Digit (c : Char) : Prop :=
  '0' ≤ c ∧ c ≤ '9'

theorem isDigit_iff {c : Char} : isDigit c = true ↔ Digit c := by
  simp [isDigit, Digit]

theorem isDigit_eq_false {c : Char} : isDigit c = false ↔ ¬ Digit c := by
  rw [← isDigit_iff, Bool.not_eq_true]

/-! ### Runs -/

section
variable {p : Char → Bool} {run s : List Char}

theorem takeWhile_run (hr : ∀ c ∈ run, p c = true) (hs : ∀ c ∈ s.head?, p c = false) :
    (run ++ s).takeWhile p = run := by
  rw [List.takeWhile_append_of_pos hr]
  cases s with
  | nil => simp
  | cons c s => rw [List.takeWhile_cons_of_neg (by simpa using hs c)]; simp

theorem dropWhile_run (hr : ∀ c ∈ run, p c = true) (hs : ∀ c ∈ s.head?, p c = false) :
    (run ++ s).dropWhile p = s := by
  rw [List.dropWhile_append_of_pos hr]
  cases s with
  | nil => simp
  | cons c s => rw [List.dropWhile_cons_of_neg (by simpa using hs c)]

theorem run_unique {run' s' : List Char} (hr : ∀ c ∈ run, p c = true) (hs : ∀ c ∈ s.head?, p c = false)
    (hr' : ∀ c ∈ run', p c = true) (hs' : ∀ c ∈ s'.head?, p c = false)
    (h : run ++ s = run' ++ s') : run = run' ∧ s = s' := by
  have hrun : run = run' := by rw [← takeWhile_run hr hs, h, takeWhile_run hr' hs']
  exact ⟨hrun, List.append_cancel_left (hrun ▸ h)⟩

theorem head?_dropWhile (p : Char → Bool) (s : List Char) : ∀ c ∈ (s.dropWhile p).head?, p c = false := by
  intro c hc
  have := List.head?_dropWhile_not p s
  rw [Option.mem_def.1 hc] at this
  simpa using this

end

/-! ### Literals -/

/-- What stands between the quotes of a literal: every quote in it is doubled. -/
inductive LiteralBody : List Char → Prop
  | nil : LiteralBody []
  | char {c : Char} {s : List Char} (hc : c ≠ '\'') (hs : LiteralBody s) : LiteralBody (c :: s)
  | quotes {s : List Char} (hs : LiteralBody s) : LiteralBody ('\'' :: '\'' :: s)

/-- A literal and the text behind it: it ends with the first quote that is not doubled, or else with
the text. -/
inductive Literal : List Char → List Char → Prop
  | closed {body s : List Char} (hb : LiteralBody body) (hs : s.head? ≠ some '\'') :
    Literal ('\'' :: body ++ ['\'']) s
  | unended {body : List Char} (hb : LiteralBody body) : Literal ('\'' :: body) []

/-- A text at which the body of a literal is over. -/
def BodyEnd (s : List Char) : Prop :=
  s = [] ∨ ∃ r, s = '\'' :: r ∧ r.head? ≠ some '\''

theorem LiteralBody.unique {b b' s s' : List Char} (hb : LiteralBody b) (hb' : LiteralBody b')
    (hs : BodyEnd s) (hs' : BodyEnd s') (h : b ++ s = b' ++ s') : b = b' := by
  induction hb generalizing b' with
  | nil =>
    cases hb' with
    | nil => rfl
    | char hc _ => rcases hs with rfl | ⟨r, rfl, _⟩ <;> grind
    | quotes _ => rcases hs with rfl | ⟨r, rfl, hr⟩ <;> grind
  | char hc _ ih =>
    cases hb' with
    | nil => rcases hs' with rfl | ⟨r, rfl, _⟩ <;> grind
    | char _ hb' =>
      simp only [List.cons_append, List.cons.injEq] at h
      rw [h.1, ih hb' h.2]
    | quotes _ => exact absurd (List.cons.inj h).1 hc
  | quotes _ ih =>
    cases hb' with
    | nil => rcases hs' with rfl | ⟨r, rfl, hr⟩ <;> grind
    | char hc _ => exact absurd (List.cons.inj h).1.symm hc
    | quotes hb' =>
      simp only [List.cons_append, List.cons.injEq, true_and] at h
      rw [ih hb' h]

theorem exists_literalBody (s : List Char) : ∃ b r, s = b ++ r ∧ LiteralBody b ∧ BodyEnd r := by
  induction s using List.twoStepInduction with
  | nil => exact ⟨[], [], rfl, .nil, .inl rfl⟩
  | singleton c =>
    by_cases hc : c = '\''
    · exact ⟨[], [c], rfl, .nil, .inr ⟨[], by rw [hc], by simp⟩⟩
    · exact ⟨[c], [], rfl, .char hc .nil, .inl rfl⟩
  | cons_cons c d s ih ih' =>
    by_cases hc : c = '\''
    · by_cases hd : d = '\''
      · obtain ⟨b, r, rfl, hb, hr⟩ := ih
        exact ⟨c :: d :: b, r, rfl, hc ▸ hd ▸ .quotes hb, hr⟩
      · exact ⟨[], c :: d :: s, rfl, .nil, .inr ⟨d :: s, by rw [hc], by simpa using hd⟩⟩
    · obtain ⟨b, r, h, hb, hr⟩ := ih' d
      exact ⟨c :: b, r, by rw [h, List.cons_append], .char hc hb, hr⟩

namespace Literal
variable {l l' s s' : List Char}

/-- The body of a literal and what is left where it is over. -/
theorem exists_body (h : Literal l s) :
    ∃ b q, LiteralBody b ∧ BodyEnd q ∧ l ++ s = '\'' :: (b ++ q) ∧
      (q = [] ∧ s = [] ∧ l = '\'' :: b ∨ q = '\'' :: s ∧ l = '\'' :: b ++ ['\'']) := by
  cases h with
  | @closed b _ hb hs => exact ⟨b, '\'' :: s, hb, .inr ⟨s, rfl, hs⟩, by simp, .inr ⟨rfl, rfl⟩⟩
  | @unended b hb => exact ⟨b, [], hb, .inl rfl, by simp, .inl ⟨rfl, rfl, rfl⟩⟩

theorem unique (h : Literal l s) (h' : Literal l' s') (e : l ++ s = l' ++ s') : l = l' ∧ s = s' := by
  obtain ⟨b, q, hb, hq, e₁, hl⟩ := h.exists_body
  obtain ⟨b', q', hb', hq', e₂, hl'⟩ := h'.exists_body
  have hbq : b ++ q = b' ++ q' := by
    rw [e₁, e₂] at e; exact (List.cons.inj e).2
  obtain rfl := hb.unique hb' hq hq' hbq
  obtain rfl := List.append_cancel_left hbq
  rcases hl with ⟨hq, rfl, rfl⟩ | ⟨rfl, rfl⟩ <;> rcases hl' with ⟨hq', rfl, rfl⟩ | ⟨hq', rfl⟩
  · exact ⟨rfl, rfl⟩
  · rw [hq] at hq'; cases hq'
  · cases hq'
  · exact ⟨rfl, (List.cons.inj hq').2⟩

theorem head? (h : Literal l s) : l.head? = some '\'' := by
  cases h <;> rfl

theorem exists_cons (h : Literal l s) : ∃ r, l = '\'' :: r :=
  ⟨l.tail, List.eq_cons_of_mem_head? h.head?⟩

end Literal

theorem exists_literal (s : List Char) : ∃ l r, '\'' :: s = l ++ r ∧ Literal l r := by
  obtain ⟨b, q, rfl, hb, hq⟩ := exists_literalBody s
  rcases hq with rfl | ⟨r, rfl, hr⟩
  · exact ⟨'\'' :: b, [], by simp, .unended hb⟩
  · exact ⟨'\'' :: b ++ ['\''], r, by simp, .closed hb hr⟩

/-! ### Items -/

/-- An item of plain text and the text behind it: a literal, a pair of colons, a colon that no name
follows, or any other character. -/
inductive Plain : List Char → List Char → Prop
  | literal {l s : List Char} (h : Literal l s) : Plain l s
  | cast {s : List Char} : Plain [':', ':'] s
  | colon {s : List Char} (h : ∀ c ∈ s.head?, c ≠ ':' ∧ ¬ NameChar c) : Plain [':'] s
  | other {c : Char} {s : List Char} (hq : c ≠ '\'') (hc : c ≠ ':') : Plain [c] s

/-- The text of a marker behind its colon: the run of name characters, and the bracket that follows it
at once, if there is one. -/
structure RawMarker where
  run : List Char
  bracket : List Char

/-- A bracket and the text behind it: digits and the end of the bracket, as far as they are there. -/
inductive Bracket : List Char → List Char → Prop
  | absent {s : List Char} (h : s.head? ≠ some '[') : Bracket [] s
  | closed {digits s : List Char} (hd : ∀ c ∈ digits, Digit c) : Bracket ('[' :: digits ++ [']']) s
  | broken {digits s : List Char} (hd : ∀ c ∈ digits, Digit c) (h : ∀ c ∈ s.head?, c ≠ ']' ∧ ¬ Digit c) :
    Bracket ('[' :: digits) s

namespace RawMarker

def text (m : RawMarker) : List Char :=
  ':' :: m.run ++ m.bracket

/-- The marker takes as much as it can of what stands in front of `s`. -/
structure Before (m : RawMarker) (s : List Char) : Prop where
  run_ne : m.run ≠ []
  run_name : ∀ c ∈ m.run, NameChar c
  run_end : ∀ c ∈ (m.bracket ++ s).head?, ¬ NameChar c
  bracket : Bracket m.bracket s

end RawMarker

/-- `Decomposes s v ms`: the text `s` is the plain text `v` and then the markers `ms`, each with the
plain text behind it. -/
inductive Decomposes : List Char → List Char → List (RawMarker × List Char) → Prop
  | nil : Decomposes [] [] []
  | plain {p s v : List Char} {ms : List (RawMarker × List Char)} (hp : Plain p s)
      (hs : Decomposes s v ms) : Decomposes (p ++ s) (p ++ v) ms
  | marker {m : RawMarker} {s v : List Char} {ms : List (RawMarker × List Char)} (hm : m.Before s)
      (hs : Decomposes s v ms) : Decomposes (m.text ++ s) [] ((m, v) :: ms)

/-! ### Well formed markers -/

/-- The brackets with a meaning: none, an empty one, and one with a number of 64 bits. -/
inductive Subscripts : List Char → Option Subscript → Prop
  | absent : Subscripts [] none
  | all : Subscripts ['[', ']'] (some .all)
  | at {digits : List Char} (hne : digits ≠ []) (hd : ∀ c ∈ digits, Digit c)
    (hv : value digits < twoTo 64) : Subscripts ('[' :: digits ++ [']']) (some (.at (value digits)))

namespace RawMarker

/-- Within percent signs on both sides there is a name, which has none itself, and the bracket has a
meaning. -/
def WellFormed (m : RawMarker) : Prop :=
  (∃ i j name, m.run = List.replicate i '%' ++ name ++ List.replicate j '%' ∧ name ≠ [] ∧ '%' ∉ name) ∧
    ∃ sub, Subscripts m.bracket sub

/-- What a well formed marker stands for. -/
structure Reads (m : RawMarker) (d : Marker) : Prop where
  run : ∃ i j, m.run = List.replicate i '%' ++ d.name.toList ++ List.replicate j '%' ∧
    d.openStart = decide (0 < i) ∧ d.openEnd = decide (0 < j)
  name_ne : d.name.toList ≠ []
  name_plain : '%' ∉ d.name.toList
  subscript : Subscripts m.bracket d.subscript

theorem Reads.wellFormed {m : RawMarker} {d : Marker} (h : m.Reads d) : m.WellFormed :=
  let ⟨i, j, hrun, _⟩ := h.run
  ⟨⟨i, j, _, hrun, h.name_ne, h.name_plain⟩, _, h.subscript⟩

theorem WellFormed.exists_reads {m : RawMarker} (h : m.WellFormed) : ∃ d, m.Reads d := by
  obtain ⟨⟨i, j, name, hrun, hne, hp⟩, sub, hsub⟩ := h
  exact ⟨⟨String.ofList name, decide (0 < i), decide (0 < j), sub⟩, ⟨i, j, by simpa using hrun, rfl, rfl⟩,
    by simpa using hne, by simpa using hp, hsub⟩

end RawMarker

/-! ### One way to cut a text -/

namespace Plain
variable {p p' s s' : List Char}

theorem ne_nil (h : Plain p s) : p ≠ [] := by
  cases h with
  | literal h => intro hp; have := h.head?; simp [hp] at this
  | cast | colon _ | other _ _ => simp

/-- What an item of plain text starts with tells which one it is. -/
theorem cases_head (h : Plain p s) :
    (p.head? = some '\'' ∧ Literal p s) ∨ (p.head? = some ':' ∧ (p = [':', ':'] ∨
      p = [':'] ∧ ∀ c ∈ s.head?, c ≠ ':' ∧ ¬ NameChar c)) ∨
      ∃ c, p = [c] ∧ c ≠ '\'' ∧ c ≠ ':' := by
  cases h with
  | literal h => exact .inl ⟨h.head?, h⟩
  | cast => exact .inr (.inl ⟨rfl, .inl rfl⟩)
  | colon h => exact .inr (.inl ⟨rfl, .inr ⟨rfl, h⟩⟩)
  | other hq hc => exact .inr (.inr ⟨_, rfl, hq, hc⟩)

theorem unique (h : Plain p s) (h' : Plain p' s') (e : p ++ s = p' ++ s') : p = p' ∧ s = s' := by
  have hhead : p.head? = p'.head? := by
    have := congrArg List.head? e
    rwa [List.head?_append_of_ne_nil _ h.ne_nil, List.head?_append_of_ne_nil _ h'.ne_nil] at this
  rcases h.cases_head with ⟨hp, hl⟩ | ⟨hp, hl⟩ | ⟨c, rfl, hq, hc⟩ <;>
    rcases h'.cases_head with ⟨hp', hl'⟩ | ⟨hp', hl'⟩ | ⟨c', rfl, hq', hc'⟩
  · exact hl.unique hl' e
  · rw [hp, hp'] at hhead; simp at hhead
  · rw [hp] at hhead; simp [hq'.symm] at hhead
  · rw [hp, hp'] at hhead; simp at hhead
  · rcases hl with rfl | ⟨rfl, hs⟩ <;> rcases hl' with rfl | ⟨rfl, hn⟩
    · simpa using e
    · obtain rfl : ':' :: s = s' := by simpa using e
      exact absurd rfl (hn ':' rfl).1
    · obtain rfl : s = ':' :: s' := by simpa using e
      exact absurd rfl (hs ':' rfl).1
    · simpa using e
  · rw [hp] at hhead; simp [hc'.symm] at hhead
  · rw [hp'] at hhead; simp [hq] at hhead
  · rw [hp'] at hhead; simp [hc] at hhead
  · simpa using e

end Plain

theorem Bracket.unique {b b' s s' : List Char} (h : Bracket b s) (h' : Bracket b' s')
    (e : b ++ s = b' ++ s') : b = b' ∧ s = s' := by
  have hend : ∀ t : List Char, ∀ c ∈ (']' :: t).head?, isDigit c = false := by
    intro t c hc; obtain rfl := Option.some.inj hc; decide
  cases h with
  | absent h =>
    cases h' with
    | absent _ => exact ⟨rfl, e⟩
    | closed _ | broken _ _ => rw [List.nil_append] at e; simp [e] at h
  | @closed ds _ hd =>
    cases h' with
    | absent h' => rw [List.nil_append] at e; simp [← e] at h'
    | @closed ds' _ hd' =>
      obtain ⟨rfl, h⟩ := run_unique (p := isDigit) (fun c hc => isDigit_iff.2 (hd c hc)) (hend s)
        (fun c hc => isDigit_iff.2 (hd' c hc)) (hend s') (by simpa using e)
      exact ⟨rfl, (List.cons.inj h).2⟩
    | @broken ds' _ hd' hn =>
      obtain ⟨rfl, h⟩ := run_unique (p := isDigit) (fun c hc => isDigit_iff.2 (hd c hc)) (hend s)
        (fun c hc => isDigit_iff.2 (hd' c hc)) (fun c hc => isDigit_eq_false.2 (hn c hc).2)
        (by simpa using e)
      exact absurd rfl (hn ']' (by rw [← h]; rfl)).1
  | @broken ds _ hd h =>
    cases h' with
    | absent h' => rw [List.nil_append] at e; simp [← e] at h'
    | @closed ds' _ hd' =>
      obtain ⟨rfl, h'⟩ := run_unique (p := isDigit) (fun c hc => isDigit_iff.2 (hd c hc))
        (fun c hc => isDigit_eq_false.2 (h c hc).2) (fun c hc => isDigit_iff.2 (hd' c hc)) (hend s')
        (by simpa using e)
      exact absurd rfl (h ']' (by rw [h']; rfl)).1
    | @broken ds' _ hd' h' =>
      obtain ⟨rfl, h⟩ := run_unique (p := isDigit) (fun c hc => isDigit_iff.2 (hd c hc))
        (fun c hc => isDigit_eq_false.2 (h c hc).2) (fun c hc => isDigit_iff.2 (hd' c hc))
        (fun c hc => isDigit_eq_false.2 (h' c hc).2) (by simpa using e)
      exact ⟨rfl, h⟩

theorem exists_bracket (t : List Char) : ∃ b s, t = b ++ s ∧ Bracket b s := by
  by_cases h : t.head? = some '['
  · obtain ⟨t, rfl⟩ : ∃ r, t = '[' :: r := ⟨t.tail, List.eq_cons_of_mem_head? h⟩
    have hd : ∀ c ∈ t.takeWhile isDigit, Digit c := fun c hc =>
      isDigit_iff.1 (List.mem_takeWhile_imp hc)
    have he : t = t.takeWhile isDigit ++ t.dropWhile isDigit := List.takeWhile_append_dropWhile.symm
    by_cases hr : (t.dropWhile isDigit).head? = some ']'
    · refine ⟨'[' :: t.takeWhile isDigit ++ [']'], (t.dropWhile isDigit).tail, ?_, .closed hd⟩
      rw [List.append_assoc, List.singleton_append, ← List.eq_cons_of_mem_head? hr, List.cons_append, ← he]
    · refine ⟨'[' :: t.takeWhile isDigit, t.dropWhile isDigit, by rw [List.cons_append, ← he],
        .broken hd fun c hc => ⟨fun h => hr (h ▸ hc), isDigit_eq_false.1 (head?_dropWhile _ _ c hc)⟩⟩
  · exact ⟨[], t, rfl, .absent h⟩

namespace RawMarker
variable {m m' : RawMarker} {s s' : List Char}

theorem text_append (m : RawMarker) (s : List Char) : m.text ++ s = ':' :: (m.run ++ (m.bracket ++ s)) := by
  simp [text]

/-- Behind the colon of a marker stands a name character. -/
theorem Before.exists_cons (h : m.Before s) : ∃ c r, NameChar c ∧ m.text ++ s = ':' :: c :: r := by
  obtain ⟨c, run, hrun⟩ := List.exists_cons_of_ne_nil h.run_ne
  exact ⟨c, run ++ (m.bracket ++ s), h.run_name c (by simp [hrun]), by rw [text_append, hrun]; rfl⟩

theorem Before.unique (h : m.Before s) (h' : m'.Before s') (e : m.text ++ s = m'.text ++ s') :
    m = m' ∧ s = s' := by
  rw [text_append, text_append] at e
  obtain ⟨hrun, hb⟩ := run_unique (p := isNameChar)
    (fun c hc => isNameChar_iff.2 (h.run_name c hc)) (fun c hc => isNameChar_eq_false.2 (h.run_end c hc))
    (fun c hc => isNameChar_iff.2 (h'.run_name c hc)) (fun c hc => isNameChar_eq_false.2 (h'.run_end c hc))
    (List.cons.inj e).2
  obtain ⟨hbracket, hs⟩ := h.bracket.unique h'.bracket hb
  cases m; cases m'
  exact ⟨by simp_all, hs⟩

end RawMarker

theorem nameChar_colon : ¬ NameChar ':' := by
  rw [← isNameChar_iff]; decide

theorem Plain.not_before {p s s' : List Char} {m : RawMarker} (h : Plain p s) (hm : m.Before s') :
    p ++ s ≠ m.text ++ s' := by
  obtain ⟨c, r, hc, e⟩ := hm.exists_cons
  rw [e]
  intro h'
  rcases h.cases_head with ⟨hp, _⟩ | ⟨_, rfl | ⟨rfl, hs⟩⟩ | ⟨d, rfl, _, hd⟩
  · have := congrArg List.head? h'
    rw [List.head?_append_of_ne_nil _ h.ne_nil, hp] at this
    cases this
  · simp only [List.cons_append, List.cons.injEq, true_and] at h'
    exact nameChar_colon (h'.1 ▸ hc)
  · obtain rfl : s = c :: r := by simpa using h'
    exact (hs c rfl).2 hc
  · exact hd (List.cons.inj h').1

theorem RawMarker.exists_before {c : Char} (hc : NameChar c) (s : List Char) :
    ∃ (m : RawMarker) (r : List Char), ':' :: c :: s = m.text ++ r ∧ m.Before r := by
  set t := c :: s
  obtain ⟨b, r, hb, hbr⟩ := exists_bracket (t.dropWhile isNameChar)
  have hrun : t.takeWhile isNameChar ≠ [] := by
    rw [List.takeWhile_cons_of_pos (isNameChar_iff.2 hc)]; simp
  refine ⟨⟨t.takeWhile isNameChar, b⟩, r, ?_, hrun, ?_, ?_, hbr⟩
  · rw [text_append, ← hb, List.takeWhile_append_dropWhile]
  · exact fun c hc => isNameChar_iff.1 (List.mem_takeWhile_imp hc)
  · rw [← hb]
    exact fun c hc => isNameChar_eq_false.1 (head?_dropWhile _ _ c hc)

/-- A text that is not empty starts with an item. -/
theorem exists_item {s : List Char} (hs : s ≠ []) :
    (∃ p r, s = p ++ r ∧ Plain p r) ∨ ∃ (m : RawMarker) (r : List Char), s = m.text ++ r ∧ m.Before r := by
  obtain ⟨c, s, rfl⟩ := List.exists_cons_of_ne_nil hs
  by_cases hq : c = '\''
  · obtain ⟨l, r, h, hl⟩ := exists_literal s
    exact .inl ⟨l, r, hq ▸ h, .literal hl⟩
  by_cases hc : c = ':'
  · subst hc
    cases s with
    | nil => exact .inl ⟨[':'], [], rfl, .colon (by simp)⟩
    | cons d s =>
      by_cases hd : d = ':'
      · exact .inl ⟨[':', ':'], s, by rw [hd]; rfl, .cast⟩
      by_cases hn : NameChar d
      · exact .inr (RawMarker.exists_before hn s)
      · exact .inl ⟨[':'], d :: s, rfl, .colon (by simpa using ⟨hd, hn⟩)⟩
  · exact .inl ⟨[c], s, rfl, .other hq hc⟩

theorem RawMarker.text_ne_nil (m : RawMarker) : m.text ≠ [] := by
  simp [text]

theorem exists_decomposes (s : List Char) : ∃ v ms, Decomposes s v ms := by
  -- items are not empty, so the text behind one is shorter
  induction hn : s.length using Nat.strong_induction_on generalizing s with
  | _ n ih =>
    by_cases hs : s = []
    · exact ⟨[], [], hs ▸ .nil⟩
    · rcases exists_item hs with ⟨p, r, rfl, hp⟩ | ⟨m, r, rfl, hm⟩
      · have hlen := List.length_pos_iff.2 hp.ne_nil
        obtain ⟨v, ms, h⟩ := ih r.length (by rw [List.length_append] at hn; omega) r rfl
        exact ⟨p ++ v, ms, .plain hp h⟩
      · have hlen := List.length_pos_iff.2 m.text_ne_nil
        obtain ⟨v, ms, h⟩ := ih r.length (by rw [List.length_append] at hn; omega) r rfl
        exact ⟨[], (m, v) :: ms, .marker hm h⟩

namespace Decomposes
variable {s v v' : List Char} {ms ms' : List (RawMarker × List Char)}

theorem unique (h : Decomposes s v ms) (h' : Decomposes s v' ms') : v = v' ∧ ms = ms' := by
  induction h generalizing v' ms' with
  | nil =>
    generalize he : ([] : List Char) = s at h'
    cases h' with
    | nil => exact ⟨rfl, rfl⟩
    | plain hp _ => exact absurd (List.append_eq_nil_iff.1 he.symm).1 hp.ne_nil
    | marker hm _ => exact absurd (List.append_eq_nil_iff.1 he.symm).1 (RawMarker.text_ne_nil _)
  | @plain p r v ms hp _ ih =>
    generalize he : p ++ r = s at h'
    cases h' with
    | nil => exact absurd (List.append_eq_nil_iff.1 he).1 hp.ne_nil
    | plain hp' h' =>
      obtain ⟨rfl, rfl⟩ := hp.unique hp' he
      obtain ⟨rfl, rfl⟩ := ih h'
      exact ⟨rfl, rfl⟩
    | marker hm _ => exact absurd he (hp.not_before hm)
  | @marker m r v ms hm _ ih =>
    generalize he : m.text ++ r = s at h'
    cases h' with
    | nil => exact absurd (List.append_eq_nil_iff.1 he).1 (RawMarker.text_ne_nil _)
    | plain hp' _ => exact absurd he.symm (hp'.not_before hm)
    | marker hm' h' =>
      obtain ⟨rfl, rfl⟩ := hm.unique hm' he
      obtain ⟨rfl, rfl⟩ := ih h'
      exact ⟨rfl, rfl⟩

/-- The items of a text make up the text. -/
theorem join (h : Decomposes s v ms) : s = v ++ ms.flatMap fun m => m.1.text ++ m.2 := by
  induction h with
  | nil => rfl
  | plain _ _ ih => rw [List.append_assoc, ← ih]
  | marker _ _ ih => rw [List.flatMap_cons, List.nil_append, List.append_assoc, ← ih]

end Decomposes

end NamedSql.Template
