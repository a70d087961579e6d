import NamedSql.Like
import NamedSql.Template
import Mathlib

/-!
# What patterns match

The rules of LIKE as a relation (`Like.Matches`), which `Like.isMatch` decides. A character behind the escape
character stands for itself before it is looked at as a wildcard, so an escape character at the end stands for
nothing (`Like.Dangling`), and such a pattern matches no text. The pattern that a marker makes of a text matches
what the marker says (`Marker.pattern_literal`).
-/

namespace NamedSql

namespace Like

variable {escape c : Char} {p s : List Char}

/-- The text `s` matches the pattern `p` as a whole. -/
inductive Matches (escape : Char) : List Char → List Char → Prop
  | nil : Matches escape [] []
  | escaped {c : Char} {p s : List Char} (h : Matches escape p s) : Matches escape (escape :: c :: p) (c :: s)
  | anyText {r p s : List Char} (he : escape ≠ '%') (h : Matches escape p s) :
    Matches escape ('%' :: p) (r ++ s)
  | anyChar {c : Char} {p s : List Char} (he : escape ≠ '_') (h : Matches escape p s) :
    Matches escape ('_' :: p) (c :: s)
  | char {c : Char} {p s : List Char} (he : escape ≠ c) (ht : c ≠ '%') (hc : c ≠ '_') (h : Matches escape p s) :
    Matches escape (c :: p) (c :: s)

/-- The pattern ends in an escape character that escapes nothing. -/
inductive Dangling (escape : Char) : List Char → Prop
  | last : Dangling escape [escape]
  | escaped {c : Char} {p : List Char} (h : Dangling escape p) : Dangling escape (escape :: c :: p)
  | char {c : Char} {p : List Char} (hc : escape ≠ c) (h : Dangling escape p) : Dangling escape (c :: p)

/-! ### The first character of a pattern -/

@[simp]
theorem matches_nil : Matches escape [] s ↔ s = [] := by
  constructor
  · intro h
    cases h
    rfl
  · rintro rfl
    exact .nil

theorem matches_escaped : Matches escape (escape :: c :: p) s ↔ ∃ t, s = c :: t ∧ Matches escape p t := by
  constructor
  · intro h
    cases h with
    | escaped h => exact ⟨_, rfl, h⟩
    | anyText he _ => exact absurd rfl he
    | anyChar he _ => exact absurd rfl he
    | char he _ _ _ => exact absurd rfl he
  · rintro ⟨t, rfl, h⟩
    exact .escaped h

theorem not_matches_last : ¬ Matches escape [escape] s := by
  intro h
  cases h with
  | anyText he _ => exact he rfl
  | anyChar he _ => exact he rfl
  | char he _ _ _ => exact he rfl

theorem matches_anyText (he : escape ≠ '%') :
    Matches escape ('%' :: p) s ↔ ∃ r t, s = r ++ t ∧ Matches escape p t := by
  constructor
  · intro h
    cases h with
    | escaped _ => exact absurd rfl he
    | anyText _ h => exact ⟨_, _, rfl, h⟩
    | char _ ht _ _ => exact absurd rfl ht
  · rintro ⟨r, t, rfl, h⟩
    exact .anyText he h

theorem matches_anyChar (he : escape ≠ '_') :
    Matches escape ('_' :: p) s ↔ ∃ d t, s = d :: t ∧ Matches escape p t := by
  constructor
  · intro h
    cases h with
    | escaped _ => exact absurd rfl he
    | anyChar _ h => exact ⟨_, _, rfl, h⟩
    | char _ _ hc _ => exact absurd rfl hc
  · rintro ⟨d, t, rfl, h⟩
    exact .anyChar he h

theorem matches_char (he : escape ≠ c) (ht : c ≠ '%') (hc : c ≠ '_') :
    Matches escape (c :: p) s ↔ ∃ t, s = c :: t ∧ Matches escape p t := by
  constructor
  · intro h
    cases h with
    | escaped _ => exact absurd rfl he
    | anyText _ _ => exact absurd rfl ht
    | anyChar _ _ => exact absurd rfl hc
    | char _ _ _ h => exact ⟨_, rfl, h⟩
  · rintro ⟨t, rfl, h⟩
    exact .char he ht hc h

@[simp]
theorem not_dangling_nil : ¬ Dangling escape [] := by
  intro h
  cases h

theorem dangling_escaped : Dangling escape (escape :: c :: p) ↔ Dangling escape p := by
  constructor
  · intro h
    cases h with
    | escaped h => exact h
    | char hc _ => exact absurd rfl hc
  · exact .escaped

theorem dangling_char (hc : escape ≠ c) : Dangling escape (c :: p) ↔ Dangling escape p := by
  constructor
  · intro h
    cases h with
    | last => exact absurd rfl hc
    | escaped _ => exact absurd rfl hc
    | char _ h => exact h
  · exact .char hc

/-! ### Deciding -/

theorem mem_rests {t : List Char} : t ∈ rests s ↔ ∃ r, s = r ++ t := by
  induction s with
  | nil =>
    simp only [rests, List.mem_singleton]
    constructor
    · rintro rfl
      exact ⟨[], rfl⟩
    · rintro ⟨r, h⟩
      exact (List.append_eq_nil_iff.1 h.symm).2
  | cons c s ih =>
    simp only [rests, List.mem_cons, ih]
    constructor
    · rintro (rfl | ⟨r, rfl⟩)
      · exact ⟨[], rfl⟩
      · exact ⟨c :: r, rfl⟩
    · rintro ⟨r, h⟩
      cases r with
      | nil => exact .inl h.symm
      | cons d r => exact .inr ⟨r, (List.cons.inj h).2⟩

theorem pieces_nil : pieces (some escape) [] = some [] := rfl

theorem pieces_last : pieces (some escape) [escape] = none :=
  if_pos rfl

theorem pieces_escaped : pieces (some escape) (escape :: c :: p) = (pieces (some escape) p).map (.char c :: ·) :=
  if_pos rfl

theorem pieces_cons (hc : escape ≠ c) : pieces (some escape) (c :: p) =
    if c = '%' then (pieces (some escape) p).map (.anyText :: ·)
    else if c = '_' then (pieces (some escape) p).map (.anyChar :: ·)
    else (pieces (some escape) p).map (.char c :: ·) := by
  have hc : some escape ≠ some c := by simpa using hc
  cases p with
  | nil => exact if_neg hc
  | cons d p => exact if_neg hc

/-- Exactly the patterns that end in their escape character have no pieces. -/
theorem pieces_eq_none (p : List Char) : pieces (some escape) p = none ↔ Dangling escape p := by
  match p with
  | [] => simp [pieces_nil]
  | c :: p =>
    by_cases hc : escape = c
    · subst hc
      match p with
      | [] => simp [pieces_last, Dangling.last]
      | d :: p => rw [pieces_escaped, Option.map_eq_none_iff, dangling_escaped, pieces_eq_none p]
    · rw [pieces_cons hc, dangling_char hc, ← pieces_eq_none p]
      split_ifs <;> simp

section
variable {same : Char → Char → Bool} {ps : List Piece}

theorem accepts_char : accepts same (.char c :: ps) s = true ↔
    ∃ d t, s = d :: t ∧ same c d = true ∧ accepts same ps t = true := by
  cases s with
  | nil => simp [accepts]
  | cons d t => simp [accepts]

theorem accepts_anyChar : accepts same (.anyChar :: ps) s = true ↔ ∃ d t, s = d :: t ∧ accepts same ps t = true := by
  cases s with
  | nil => simp [accepts]
  | cons d t => simp [accepts]

theorem accepts_anyText : accepts same (.anyText :: ps) s = true ↔ ∃ r t, s = r ++ t ∧ accepts same ps t = true := by
  rw [accepts, List.any_eq_true]
  constructor
  · rintro ⟨t, ht, h⟩
    obtain ⟨r, rfl⟩ := mem_rests.1 ht
    exact ⟨r, t, rfl, h⟩
  · rintro ⟨r, t, rfl, h⟩
    exact ⟨t, mem_rests.2 ⟨r, rfl⟩, h⟩

end

/-- The pieces of a pattern accept what matches it. -/
theorem accepts_pieces {ps : List Piece} (p s : List Char) (h : pieces (some escape) p = some ps) :
    accepts (· == ·) ps s = true ↔ Matches escape p s := by
  match p with
  | [] =>
    obtain rfl := Option.some.inj h
    simp [accepts]
  | c :: p =>
    by_cases hc : escape = c
    · subst hc
      match p with
      | [] =>
        rw [pieces_last] at h
        cases h
      | d :: p =>
        rw [pieces_escaped] at h
        obtain ⟨qs, hqs, rfl⟩ := Option.map_eq_some_iff.1 h
        have hrest (t : List Char) := accepts_pieces p t hqs
        simp [matches_escaped, accepts_char, hrest]
    · rw [pieces_cons hc] at h
      split_ifs at h with ht hu
      · obtain ⟨qs, hqs, rfl⟩ := Option.map_eq_some_iff.1 h
        have hrest (t : List Char) := accepts_pieces p t hqs
        subst ht
        simp [matches_anyText hc, accepts_anyText, hrest]
      · obtain ⟨qs, hqs, rfl⟩ := Option.map_eq_some_iff.1 h
        have hrest (t : List Char) := accepts_pieces p t hqs
        subst hu
        simp [matches_anyChar hc, accepts_anyChar, hrest]
      · obtain ⟨qs, hqs, rfl⟩ := Option.map_eq_some_iff.1 h
        have hrest (t : List Char) := accepts_pieces p t hqs
        simp [matches_char hc ht hu, accepts_char, hrest]

theorem Dangling.not_matches (h : Dangling escape p) : ¬ Matches escape p s := by
  induction h generalizing s with
  | last => exact not_matches_last
  | escaped _ ih =>
    rw [matches_escaped]
    rintro ⟨t, rfl, h⟩
    exact ih h
  | @char c p hc _ ih =>
    intro h
    cases h with
    | escaped _ => exact hc rfl
    | anyText _ h => exact ih h
    | anyChar _ h => exact ih h
    | char _ _ _ h => exact ih h

theorem isMatch_iff : isMatch (· == ·) (some escape) p s = true ↔ Matches escape p s := by
  unfold isMatch
  split
  · next ps hps => exact accepts_pieces p s hps
  · next hps =>
    have hnone : ¬ Matches escape p s := ((pieces_eq_none p).1 hps).not_matches
    simp [hnone]

instance : Decidable (Matches escape p s) :=
  decidable_of_iff _ isMatch_iff

instance : Decidable (Dangling escape p) :=
  decidable_of_iff _ (pieces_eq_none p)

end Like

namespace Marker

open Like

/-! ### Escaped texts -/

/-- Characters with a meaning, which are escaped in patterns. -/
theorem escapeLike_cons (escape c : Char) (v : List Char) : escapeLike escape (c :: v) =
    (if c = '%' ∨ c = '_' ∨ c = escape then [escape, c] else [c]) ++ escapeLike escape v := by
  simp only [escapeLike, List.flatMap_cons, Bool.or_eq_true, beq_iff_eq, or_assoc]

variable {escape : Char} {v p s : List Char}

/-- An escaped text matches itself, whatever the escape character is. -/
theorem matches_escapeLike :
    Matches escape (escapeLike escape v ++ p) s ↔ ∃ t, s = v ++ t ∧ Matches escape p t := by
  induction v generalizing s with
  | nil => simp [escapeLike]
  | cons c v ih =>
    have hcons : Matches escape (escapeLike escape (c :: v) ++ p) s ↔
        ∃ t, s = c :: t ∧ Matches escape (escapeLike escape v ++ p) t := by
      rw [escapeLike_cons]
      split
      · exact matches_escaped
      · next h =>
        obtain ⟨ht, hc, he⟩ : c ≠ '%' ∧ c ≠ '_' ∧ c ≠ escape := by simpa using h
        exact matches_char he.symm ht hc
    rw [hcons]
    constructor
    · rintro ⟨_, rfl, h⟩
      obtain ⟨t, rfl, ht⟩ := ih.1 h
      exact ⟨t, rfl, ht⟩
    · rintro ⟨t, rfl, ht⟩
      exact ⟨v ++ t, rfl, ih.2 ⟨t, rfl, ht⟩⟩

theorem dangling_escapeLike : Dangling escape (escapeLike escape v ++ p) ↔ Dangling escape p := by
  induction v with
  | nil => simp [escapeLike]
  | cons c v ih =>
    rw [escapeLike_cons]
    split
    · exact dangling_escaped.trans ih
    · next h =>
      have he : escape ≠ c := by
        rintro rfl
        simp at h
      exact (dangling_char he).trans ih

/-! ### Patterns -/

/-- The texts that a marker lets through for a text: with anything in front of it, behind it, or both. -/
def Admits (m : Marker) (v s : List Char) : Prop :=
  match m.openStart, m.openEnd with
  | false, false => s = v
  | false, true => v <+: s
  | true, false => v <:+ s
  | true, true => v <:+: s

instance (m : Marker) (v s : List Char) : Decidable (m.Admits v s) := by
  unfold Admits
  split <;> infer_instance

/-- What stands behind the text in a pattern. -/
theorem matches_end (he : escape ≠ '%') (openEnd : Bool) {t : List Char} :
    Matches escape (if openEnd then ['%'] else []) t ↔ openEnd = true ∨ t = [] := by
  cases openEnd with
  | false => simp
  | true =>
    simp only [↓reduceIte, true_or, iff_true]
    exact (matches_anyText he).2 ⟨t, [], by simp, .nil⟩

theorem matches_pattern (he : escape ≠ '%') (m : Marker) : Matches escape (m.pattern escape v) s ↔
    ∃ r t, s = r ++ (v ++ t) ∧ (m.openStart = true ∨ r = []) ∧ (m.openEnd = true ∨ t = []) := by
  unfold pattern
  rw [List.append_assoc]
  cases hstart : m.openStart with
  | false =>
    simp only [Bool.false_eq_true, ↓reduceIte, List.nil_append, false_or, matches_escapeLike, matches_end he]
    constructor
    · rintro ⟨t, rfl, ht⟩
      exact ⟨[], t, rfl, rfl, ht⟩
    · rintro ⟨r, t, rfl, rfl, ht⟩
      exact ⟨t, rfl, ht⟩
  | true =>
    simp only [↓reduceIte, true_or, true_and, List.singleton_append, matches_anyText he, matches_escapeLike,
      matches_end he]
    constructor
    · rintro ⟨r, _, rfl, t, rfl, ht⟩
      exact ⟨r, t, rfl, ht⟩
    · rintro ⟨r, t, rfl, ht⟩
      exact ⟨r, _, rfl, t, rfl, ht⟩

theorem admits_iff {m : Marker} : m.Admits v s ↔
    ∃ r t, s = r ++ (v ++ t) ∧ (m.openStart = true ∨ r = []) ∧ (m.openEnd = true ∨ t = []) := by
  unfold Admits
  cases m.openStart <;> cases m.openEnd
  · simp
  · simp [List.IsPrefix, eq_comm]
  · simp [List.IsSuffix, eq_comm]
  · simp [List.IsInfix, eq_comm]

/-- Whatever the escape character is, other than the percent sign, the pattern for a text escapes it as a whole and
matches exactly the texts that the marker lets through for it. -/
theorem pattern_literal (m : Marker) {escape : Char} (he : escape ≠ '%') (v : List Char) :
    ¬ Dangling escape (m.pattern escape v) ∧ ∀ s, Matches escape (m.pattern escape v) s ↔ m.Admits v s := by
  constructor
  · have hend : ¬ Dangling escape (if m.openEnd then ['%'] else []) := by
      cases m.openEnd with
      | false => simp
      | true => simp [dangling_char he]
    unfold pattern
    rw [List.append_assoc]
    cases m.openStart with
    | false => simpa [dangling_escapeLike] using hend
    | true => simpa [dangling_char he, dangling_escapeLike] using hend
  · intro s
    rw [matches_pattern he, admits_iff]

/-- The underscore escapes itself, and the wildcards of the text. -/
theorem pattern_literal_underscore :
    '_' ≠ '%' ∧ pattern ⟨"n", false, true, none⟩ '_' "50%_".toList = "50_%__%".toList ∧
      ¬ Dangling '_' "50_%__%".toList ∧ Matches '_' "50_%__%".toList "50%_off".toList ∧
      ¬ Matches '_' "50_%__%".toList "50 off".toList := by
  have hpattern : pattern ⟨"n", false, true, none⟩ '_' "50%_".toList = "50_%__%".toList := by decide
  have hescape : '_' ≠ '%' := by decide
  obtain ⟨hwhole, hmatches⟩ := pattern_literal ⟨"n", false, true, none⟩ hescape "50%_".toList
  rw [hpattern] at hwhole hmatches
  refine ⟨hescape, hpattern, hwhole, (hmatches _).2 ?_, mt (hmatches _).1 ?_⟩
  · decide
  · decide

end Marker

end NamedSql
