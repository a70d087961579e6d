import NamedSql.Proofs.Wording

/-!
# Squeezing and parsing

Squeezed before or after it is parsed, a text becomes the same template: the same markers, and the same SQL once that
is squeezed as well (`squeeze_commutes`). The parser passes over doubled quotes, and squeezing takes each quote for
itself, but both find the same literals (`Literals.squeezeFrom`), and these are left as they stand.
-/

namespace NamedSql

open Text

namespace Catalog

/-! ### Literals -/

/-- `Literals s ls`: the literals in the text `s` are `ls`, from left to right. -/
inductive Literals : List Char → List (List Char) → Prop
  | nil : Literals [] []
  | char {c : Char} {s : List Char} {ls : List (List Char)} (hq : c ≠ '\'') (hs : Literals s ls) : Literals (c :: s) ls
  | literal {l s : List Char} {ls : List (List Char)} (hl : Template.Literal l s) (hs : Literals s ls) :
    Literals (l ++ s) (l :: ls)

theorem exists_literals (s : List Char) : ∃ ls, Literals s ls := by
  induction hn : s.length using Nat.strong_induction_on generalizing s with
  | _ n ih =>
    rcases s with _ | ⟨c, s⟩
    · exact ⟨[], .nil⟩
    by_cases hq : c = '\''
    · subst hq
      obtain ⟨l, r, hs, hl⟩ := Template.exists_literal s
      have hlen : r.length < n := by
        have := List.length_pos_iff.2 (Template.Plain.literal hl).ne_nil
        rw [← hn, hs, List.length_append]
        omega
      obtain ⟨ls, hls⟩ := ih r.length hlen r rfl
      exact ⟨l :: ls, hs ▸ .literal hl hls⟩
    · obtain ⟨ls, hls⟩ := ih s.length (by rw [← hn]; simp) s rfl
      exact ⟨ls, .char hq hls⟩

namespace Literals
variable {s : List Char} {ls ls' : List (List Char)}

theorem unique (h : Literals s ls) (h' : Literals s ls') : ls' = ls := by
  induction h generalizing ls' with
  | nil =>
    generalize he : ([] : List Char) = s at h'
    cases h' with
    | nil => rfl
    | char _ _ => cases he
    | literal hl _ => exact absurd (List.append_eq_nil_iff.1 he.symm).1 (Template.Plain.literal hl).ne_nil
  | @char c s ls hq _ ih =>
    generalize he : c :: s = s' at h'
    cases h' with
    | nil => cases he
    | char _ h' =>
      obtain ⟨rfl, rfl⟩ := List.cons.inj he
      exact ih h'
    | literal hl _ =>
      obtain ⟨l, rfl⟩ := hl.exists_cons
      exact absurd (List.cons.inj he).1 hq
  | @literal l s ls hl _ ih =>
    generalize he : l ++ s = s' at h'
    cases h' with
    | nil => exact absurd (List.append_eq_nil_iff.1 he).1 (Template.Plain.literal hl).ne_nil
    | char hq _ =>
      obtain ⟨l, rfl⟩ := hl.exists_cons
      exact absurd (List.cons.inj he).1.symm hq
    | literal hl' h' =>
      obtain ⟨rfl, rfl⟩ := hl.unique hl' he
      rw [ih h']

theorem gap (h : Literals s ls) (pending : Bool) : Literals (Catalog.gap pending ++ s) ls := by
  cases pending with
  | false => exact h
  | true => exact .char (by decide) h

/-- The literals of a text are those of the text squeezed. -/
theorem squeezeFrom (h : Literals s ls) (pending started : Bool) :
    Literals (Catalog.squeezeFrom false pending started s) ls := by
  induction h generalizing pending started with
  | nil => exact .nil
  | @char c s ls hq _ ih =>
    by_cases hb : isBlank c = true
    · rw [squeezeFrom_blank hb]
      exact ih started started
    · rw [squeezeFrom_char hq (Bool.eq_false_iff.2 hb)]
      exact gap (.char hq (ih false true)) pending
  | literal hl _ ih =>
    rw [squeezeFrom_literal hl, List.append_assoc]
    exact gap (.literal (literal_squeezeFrom hl) (ih false true)) pending

end Literals

/-! ### Squeezing twice -/

/-- Squeezing again changes nothing. White space that is still to be written stands outside literals, behind something
else. -/
theorem squeezeFrom_squeezeFrom {quoted pending started : Bool}
    (hpending : pending = true → quoted = false ∧ started = true) (s : List Char) :
    squeezeFrom quoted false started (squeezeFrom quoted pending started s) = squeezeFrom quoted pending started s := by
  induction s generalizing quoted pending started with
  | nil => rfl
  | cons c s ih =>
    by_cases hc : quoted = true ∨ isBlank c = false
    · set behind := if c = '\'' then !quoted else quoted
      have hrest : squeezeFrom behind false true (squeezeFrom behind false true s) = squeezeFrom behind false true s :=
        ih nofun
      rw [squeezeFrom_cons hc]
      cases pending with
      | false => rw [gap_false, List.nil_append, squeezeFrom_cons hc, hrest]; rfl
      | true =>
        obtain ⟨rfl, rfl⟩ := hpending rfl
        show squeezeFrom false false true (' ' :: c :: _) = _
        rw [squeezeFrom_blank rfl, squeezeFrom_cons hc, hrest]
    · simp only [not_or, Bool.not_eq_true, Bool.not_eq_false] at hc
      obtain ⟨rfl, hc⟩ := hc
      rw [squeezeFrom_blank hc]
      exact ih fun hstarted => ⟨rfl, hstarted⟩

theorem squeeze_squeeze (s : List Char) : squeeze (squeeze s) = squeeze s := by
  have hpending : false = true → false = false ∧ false = true := nofun
  exact squeezeFrom_squeezeFrom hpending s

/-! ### Parsing what was squeezed -/

/-- What is parsed can be parsed squeezed, with the same markers and with the SQL squeezed. -/
theorem parse_squeeze {escape : Char} {s : List Char} {t : Template}
    (ht : Template.parse escape (String.ofList s) = .ok t) :
    ∃ t', Template.parse escape (String.ofList (squeeze s)) = .ok t' ∧ t'.markers = t.markers ∧
      (escape ≠ '\'' → t'.sql = String.ofList (squeeze t.sql.toList)) := by
  obtain ⟨v, ms, ts, h, hts, rfl⟩ := Template.parse_eq_ok_iff.1 ht
  rw [String.toList_ofList] at h
  obtain ⟨v', ms', h', hms, hsql⟩ := decomposes_squeezeFrom h false false
  obtain ⟨ts', hts', hfst⟩ := exists_reading_of_map_fst hts hms.symm
  refine ⟨_, Template.parse_eq_ok_iff.2 ⟨v', ms', ts', by rwa [String.toList_ofList], hts', rfl⟩, ?_, fun he => ?_⟩
  · rw [Template.markers_piecesOf, Template.markers_piecesOf, hfst]
  · rw [Template.sql, Template.expand, hsql he hts hts' hfst, Template.sql, Template.expand, String.toList_ofList]
    rfl

/-- Squeezing commutes with parsing: a text is parsed exactly when it is parsed squeezed, then with the same markers,
and the SQL is squeezed as the text is. What is squeezed stays as it is, and so do the literals of the text, of which
there is one list. -/
theorem squeeze_commutes {escape : Char} (he : escape ≠ '\'') (s : String) :
    ((∃ t', Template.parse escape (String.ofList (squeeze s.toList)) = .ok t') ↔
      ∃ t, Template.parse escape s = .ok t) ∧
    (∀ t t', Template.parse escape s = .ok t → Template.parse escape (String.ofList (squeeze s.toList)) = .ok t' →
      t'.markers = t.markers ∧ t'.sql = String.ofList (squeeze t.sql.toList)) ∧
    squeeze (squeeze s.toList) = squeeze s.toList ∧
    ∃ ls, ∀ ls', (Literals s.toList ls' ↔ ls' = ls) ∧ (Literals (squeeze s.toList) ls' ↔ ls' = ls) := by
  have hparse : ∀ t, Template.parse escape s = .ok t →
      ∃ t', Template.parse escape (String.ofList (squeeze s.toList)) = .ok t' ∧ t'.markers = t.markers ∧
        (escape ≠ '\'' → t'.sql = String.ofList (squeeze t.sql.toList)) := by
    intro t ht
    rw [← String.ofList_toList (s := s)] at ht
    exact parse_squeeze ht
  refine ⟨⟨?_, ?_⟩, ?_, squeeze_squeeze _, ?_⟩
  · rintro ⟨t', ht'⟩
    obtain ⟨t, ht, -⟩ := markers_squeeze ht'
    exact ⟨t, by rwa [String.ofList_toList] at ht⟩
  · rintro ⟨t, ht⟩
    obtain ⟨t', ht', -⟩ := hparse t ht
    exact ⟨t', ht'⟩
  · intro t t' ht ht'
    obtain ⟨t'', ht'', hmarkers, hsql⟩ := hparse t ht
    obtain rfl := Except.ok.inj (ht'.symm.trans ht'')
    exact ⟨hmarkers, hsql he⟩
  · obtain ⟨ls, hls⟩ := exists_literals s.toList
    refine ⟨ls, fun ls' => ⟨⟨hls.unique, ?_⟩, ⟨(hls.squeezeFrom false false).unique, ?_⟩⟩⟩
    · rintro rfl
      exact hls
    · rintro rfl
      exact hls.squeezeFrom false false

/-- White space of several kinds around markers, in an escape clause and in literals, of which the last has no end. -/
def spacious : String :=
  "  k = :k\u00A0\n\tAND v  LIKE :%v%'a  ''b'  ;  'c  "

theorem squeeze_commutes_of_spacious : (' ' : Char) ≠ '\'' ∧ ∃ t t', Template.parse ' ' spacious = .ok t ∧
    Template.parse ' ' (String.ofList (squeeze spacious.toList)) = .ok t' ∧ t.markers.length = 2 ∧
    t'.markers = t.markers ∧ t'.sql = String.ofList (squeeze t.sql.toList) ∧
    t'.sql = "k = ? AND v LIKE ? ESCAPE ' ''a  ''b' ; 'c  " := by
  have h : ∃ t, Template.parse ' ' spacious = .ok t ∧ t.markers.length = 2 ∧
      squeeze t.sql.toList = "k = ? AND v LIKE ? ESCAPE ' ''a  ''b' ; 'c  ".toList :=
    ⟨_, by cbv, by cbv, by cbv⟩
  obtain ⟨t, ht, hlength, hsqueezed⟩ := h
  have hquote : (' ' : Char) ≠ '\'' := by decide
  obtain ⟨⟨-, hparse⟩, hboth, -⟩ := squeeze_commutes hquote spacious
  obtain ⟨t', ht'⟩ := hparse ⟨t, ht⟩
  obtain ⟨hmarkers, hsql⟩ := hboth t t' ht ht'
  exact ⟨hquote, t, t', ht, ht', hlength, hmarkers, hsql, by rw [hsql, hsqueezed, String.ofList_toList]⟩

end Catalog

end NamedSql
