import NamedSql.Catalog
import NamedSql.Proofs.Digits
import NamedSql.Proofs.Positional

/-!
# The wording of statements

What squeezing leaves of a text, said without the walk. A text is words with white space between them, where a literal
is part of a word as it stands (`Words`); squeezed, it is its words with one space between them (`Words.squeeze`).
The markers of a text are the same when it is squeezed (`markers_squeeze`), and the SQL that it is read as is squeezed
in the same way (`decomposes_squeezeFrom`).
-/

namespace NamedSql

open Text

/-- A separator in front of every item but the first. -/
theorem intercalate_cons {α : Type} (x : α) (l : List α) (ls : List (List α)) :
    List.intercalate [x] (l :: ls) = l ++ ls.flatMap (x :: ·) := by
  induction ls generalizing l with
  | nil => simp
  | cons m ls ih => simp [List.intercalate_cons_cons, ih]

namespace Catalog

/-! ### Words -/

/-- `Word w s`: the text `w` is part of a word if the text `s` follows it: literals as they stand, and other characters
that are not white space. -/
inductive Word : List Char → List Char → Prop
  | literal {l s : List Char} (h : Template.Literal l s) : Word l s
  | char {c : Char} {s : List Char} (hq : c ≠ '\'') (hb : isBlank c = false) : Word [c] s
  | append {w w' s : List Char} (h : Word w (w' ++ s)) (h' : Word w' s) : Word (w ++ w') s

/-- A text at which a word is over. -/
def WordEnd (s : List Char) : Prop :=
  ∀ c ∈ s.head?, isBlank c = true

/-- `Words s ws`: outside literals the text `s` is the words `ws` with white space between them. -/
inductive Words : List Char → List (List Char) → Prop
  | nil : Words [] []
  | blank {c : Char} {s : List Char} {ws : List (List Char)} (hc : isBlank c = true) (hs : Words s ws) :
    Words (c :: s) ws
  | word {w s : List Char} {ws : List (List Char)} (hw : Word w s) (hend : WordEnd s) (hs : Words s ws) :
    Words (w ++ s) (w :: ws)

theorem Word.ne_nil {w s : List Char} (h : Word w s) : w ≠ [] := by
  induction h with
  | literal h => exact (Template.Plain.literal h).ne_nil
  | char _ _ => simp
  | append _ _ ih _ => simp [ih]

theorem exists_word {c : Char} (hc : isBlank c = false) (s : List Char) :
    ∃ w r, c :: s = w ++ r ∧ Word w r ∧ WordEnd r := by
  induction hn : s.length using Nat.strong_induction_on generalizing c s with
  | _ n ih =>
    obtain ⟨w, r, hs, hw⟩ : ∃ w r, c :: s = w ++ r ∧ Word w r := by
      by_cases hq : c = '\''
      · obtain ⟨l, r, hl, h⟩ := Template.exists_literal s
        exact ⟨l, r, hq ▸ hl, .literal h⟩
      · exact ⟨[c], s, rfl, .char hq hc⟩
    rcases r with _ | ⟨d, r⟩
    · exact ⟨w, [], hs, hw, nofun⟩
    by_cases hd : isBlank d = true
    · refine ⟨w, d :: r, hs, hw, ?_⟩
      rintro _ ⟨⟩
      exact hd
    · -- the word goes on behind this part of it
      have hlen : r.length < n := by
        have := congrArg List.length hs
        have := List.length_pos_iff.2 hw.ne_nil
        simp only [List.length_append, List.length_cons] at *
        omega
      obtain ⟨w', r', hr, hw', hend⟩ := ih r.length hlen (Bool.eq_false_iff.2 hd) r rfl
      exact ⟨w ++ w', r', by rw [hs, hr, List.append_assoc], .append (hr ▸ hw) hw', hend⟩

theorem exists_words (s : List Char) : ∃ ws, Words s ws := by
  induction hn : s.length using Nat.strong_induction_on generalizing s with
  | _ n ih =>
    rcases s with _ | ⟨c, s⟩
    · exact ⟨[], .nil⟩
    by_cases hc : isBlank c = true
    · obtain ⟨ws, hws⟩ := ih s.length (by rw [← hn]; simp) s rfl
      exact ⟨ws, .blank hc hws⟩
    · obtain ⟨w, r, hs, hw, hend⟩ := exists_word (Bool.eq_false_iff.2 hc) s
      have hlen : r.length < n := by
        have := List.length_pos_iff.2 hw.ne_nil
        rw [← hn, hs, List.length_append]
        omega
      obtain ⟨ws, hws⟩ := ih r.length hlen r rfl
      exact ⟨w :: ws, hs ▸ .word hw hend hws⟩

/-! ### Squeezing -/

/-- The space that is written for white space that was met. -/
def gap (pending : Bool) : List Char :=
  if pending then [' '] else []

@[simp] theorem gap_false : gap false = [] := rfl

theorem squeezeFrom_blank {c : Char} (hc : isBlank c = true) (pending started : Bool) (s : List Char) :
    squeezeFrom false pending started (c :: s) = squeezeFrom false started started s := by
  simp [squeezeFrom, hc]

theorem squeezeFrom_cons {quoted : Bool} {c : Char} (hc : quoted = true ∨ isBlank c = false)
    (pending started : Bool) (s : List Char) :
    squeezeFrom quoted pending started (c :: s) =
      gap pending ++ c :: squeezeFrom (if c = '\'' then !quoted else quoted) false true s := by
  have hkept : ¬ (!quoted && isBlank c) = true := by
    rcases hc with rfl | hc <;> simp [*]
  rw [squeezeFrom, if_neg hkept]
  cases pending <;> simp [gap]

theorem squeezeFrom_quoted (c : Char) (pending started : Bool) (s : List Char) :
    squeezeFrom true pending started (c :: s) =
      gap pending ++ c :: squeezeFrom (if c = '\'' then false else true) false true s :=
  squeezeFrom_cons (.inl rfl) pending started s

theorem squeezeFrom_char {c : Char} (hq : c ≠ '\'') (hb : isBlank c = false) (pending started : Bool)
    (s : List Char) :
    squeezeFrom false pending started (c :: s) = gap pending ++ c :: squeezeFrom false false true s := by
  rw [squeezeFrom_cons (.inr hb), if_neg hq]

/-- Within a literal everything is kept. -/
theorem squeezeFrom_body {b : List Char} (hb : Template.LiteralBody b) (s : List Char) :
    squeezeFrom true false true (b ++ s) = b ++ squeezeFrom true false true s := by
  induction hb with
  | nil => rfl
  | char hc _ ih => rw [List.cons_append, squeezeFrom_quoted, if_neg hc, ih]; rfl
  | quotes _ ih =>
    rw [List.cons_append, List.cons_append, squeezeFrom_quoted, if_pos rfl, squeezeFrom_cons (.inr rfl), if_pos rfl,
      Bool.not_false, ih]
    rfl

theorem squeezeFrom_literal {l s : List Char} (h : Template.Literal l s) (pending started : Bool) :
    squeezeFrom false pending started (l ++ s) = gap pending ++ l ++ squeezeFrom false false true s := by
  cases h with
  | closed hb _ =>
    rw [List.cons_append, List.cons_append, List.append_assoc, squeezeFrom_cons (.inr rfl), if_pos rfl, Bool.not_false,
      squeezeFrom_body hb, List.singleton_append, squeezeFrom_quoted, if_pos rfl]
    simp
  | unended hb =>
    rw [List.cons_append, squeezeFrom_cons (.inr rfl), if_pos rfl, Bool.not_false, squeezeFrom_body hb]
    simp [squeezeFrom]

theorem Word.squeezeFrom {w s : List Char} (h : Word w s) (pending started : Bool) :
    squeezeFrom false pending started (w ++ s) = gap pending ++ w ++ squeezeFrom false false true s := by
  induction h generalizing pending started with
  | literal h => exact squeezeFrom_literal h pending started
  | char hq hb =>
    rw [List.singleton_append, squeezeFrom_char hq hb, List.append_assoc, List.singleton_append]
  | append _ _ ih ih' =>
    rw [List.append_assoc, ih, ih']
    simp

/-- Where a word is over, the white space behind it is still to be written. -/
theorem squeezeFrom_wordEnd {s : List Char} (h : WordEnd s) (pending : Bool) :
    squeezeFrom false pending true s = squeezeFrom false true true s := by
  rcases s with _ | ⟨c, s⟩
  · rfl
  · rw [squeezeFrom_blank (h c rfl), squeezeFrom_blank (h c rfl)]

/-- The invariant of the walk between two words: behind one, a space stands in front of each word that follows. -/
theorem Words.squeezeFrom {s : List Char} {ws : List (List Char)} (h : Words s ws) :
    squeezeFrom false true true s = ws.flatMap (' ' :: ·) ∧
      squeezeFrom false false false s = List.intercalate [' '] ws := by
  induction h with
  | nil => exact ⟨rfl, rfl⟩
  | blank hc _ ih => rwa [squeezeFrom_blank hc, squeezeFrom_blank hc]
  | word hw hend _ ih =>
    rw [hw.squeezeFrom, hw.squeezeFrom, squeezeFrom_wordEnd hend, ih.1, intercalate_cons]
    exact ⟨rfl, rfl⟩

/-- Squeezed, a text is its words with one space between them. -/
theorem Words.squeeze {s : List Char} {ws : List (List Char)} (h : Words s ws) :
    squeeze s = List.intercalate [' '] ws :=
  h.squeezeFrom.2

/-! ### Markers -/

theorem head?_squeezeFrom_pending (s : List Char) :
    ∀ c ∈ (squeezeFrom false true true s).head?, c = ' ' := by
  induction s with
  | nil => nofun
  | cons d s ih =>
    by_cases hd : isBlank d = true
    · rwa [squeezeFrom_blank hd]
    · rw [squeezeFrom_cons (.inr (Bool.eq_false_iff.2 hd))]
      rintro c hc
      exact (Option.some.inj hc).symm

/-- What stands behind a word starts as before, or with the space for white space. -/
theorem head?_squeezeFrom {P : Char → Prop} (hspace : P ' ') {s : List Char} (hs : ∀ c ∈ s.head?, P c) :
    ∀ c ∈ (squeezeFrom false false true s).head?, P c := by
  rcases s with _ | ⟨d, s⟩
  · nofun
  intro c hc
  by_cases hd : isBlank d = true
  · rw [squeezeFrom_blank hd] at hc
    rw [head?_squeezeFrom_pending s c hc]
    exact hspace
  · rw [squeezeFrom_cons (.inr (Bool.eq_false_iff.2 hd))] at hc
    exact hs c hc

theorem isBlank_of_nameChar {c : Char} (h : Template.NameChar c) : isBlank c = false := by
  rcases h with h | h | h | rfl | rfl
  · exact isBlank_of_between h.1 h.2 (by decide) (by decide)
  · exact isBlank_of_between h.1 h.2 (by decide) (by decide)
  · exact Decimal.isBlank_of_isDigit (Template.isDigit_iff.2 h)
  · rfl
  · rfl

theorem Word.of_chars {w : List Char} (hw : ∀ c ∈ w, c ≠ '\'' ∧ isBlank c = false) (hne : w ≠ []) (s : List Char) :
    Word w s := by
  induction w with
  | nil => exact absurd rfl hne
  | cons c w ih =>
    obtain ⟨⟨hq, hb⟩, hw⟩ := List.forall_mem_cons.1 hw
    rcases w with _ | ⟨d, w⟩
    · exact .char hq hb
    · exact .append (w := [c]) (.char hq hb) (ih hw (by simp))

theorem bracket_chars {b s : List Char} (h : Template.Bracket b s) : ∀ c ∈ b, c ≠ '\'' ∧ isBlank c = false := by
  have hdigits : ∀ ds : List Char, (∀ c ∈ ds, Template.Digit c) → ∀ c ∈ ds, c ≠ '\'' ∧ isBlank c = false := by
    intro ds hds c hc
    have hdigit := Template.isDigit_iff.2 (hds c hc)
    refine ⟨?_, Decimal.isBlank_of_isDigit hdigit⟩
    rintro rfl
    cases hdigit
  have hopen : '[' ≠ '\'' ∧ isBlank '[' = false := ⟨by decide, rfl⟩
  have hclose : ']' ≠ '\'' ∧ isBlank ']' = false := ⟨by decide, rfl⟩
  cases h with
  | absent _ => nofun
  | closed hd =>
    exact List.forall_mem_append.2
      ⟨List.forall_mem_cons.2 ⟨hopen, hdigits _ hd⟩, List.forall_mem_singleton.2 hclose⟩
  | broken hd _ => exact List.forall_mem_cons.2 ⟨hopen, hdigits _ hd⟩

theorem marker_word {m : Template.RawMarker} {s : List Char} (h : m.Before s) : Word m.text s := by
  refine Word.of_chars ?_ m.text_ne_nil s
  intro c hc
  rw [Template.RawMarker.text, List.cons_append, List.mem_cons, List.mem_append] at hc
  rcases hc with rfl | hc | hc
  · exact ⟨by decide, rfl⟩
  · refine ⟨?_, isBlank_of_nameChar (h.run_name c hc)⟩
    rintro rfl
    exact absurd (Template.isNameChar_iff.2 (h.run_name _ hc)) (by decide)
  · exact bracket_chars h.bracket c hc

theorem bracket_squeezeFrom {b s : List Char} (h : Template.Bracket b s) :
    Template.Bracket b (squeezeFrom false false true s) := by
  cases h with
  | absent h =>
    refine .absent fun hc => ?_
    exact head?_squeezeFrom (P := (· ≠ '[')) (by decide) (fun c hc => by rintro rfl; exact h hc) _ hc rfl
  | closed hd => exact .closed hd
  | broken hd h =>
    refine .broken hd (head?_squeezeFrom (P := fun c => c ≠ ']' ∧ ¬ Template.Digit c) ⟨by decide, ?_⟩ h)
    rw [← Template.isDigit_iff]
    decide

/-- What may stand behind a marker may stand there squeezed. -/
theorem before_squeezeFrom {m : Template.RawMarker} {s : List Char} (h : m.Before s) :
    m.Before (squeezeFrom false false true s) where
  run_ne := h.run_ne
  run_name := h.run_name
  run_end := by
    have hend := h.run_end
    rcases hb : m.bracket with _ | ⟨d, b⟩
    · rw [hb] at hend
      refine head?_squeezeFrom (P := fun c => ¬ Template.NameChar c) ?_ hend
      rw [← Template.isNameChar_iff]
      decide
    · rw [hb] at hend
      exact hend
  bracket := bracket_squeezeFrom h.bracket

theorem squeezeFrom_eq_nil {s : List Char} (h : s = []) : squeezeFrom false false true s = [] := by
  rw [h, squeezeFrom]

theorem head?_squeezeFrom_cases (s : List Char) :
    ∀ c ∈ (squeezeFrom false false true s).head?, c ∈ s.head? ∨ c = ' ' ∨ c = '?' :=
  head?_squeezeFrom (P := fun c => c ∈ s.head? ∨ c = ' ' ∨ c = '?') (.inr (.inl rfl)) fun _ hc => .inl hc

theorem plain_squeezeFrom {p s : List Char} (h : Template.Plain p s) :
    Template.Plain p (squeezeFrom false false true s) :=
  h.of_head? squeezeFrom_eq_nil (head?_squeezeFrom_cases s)

theorem literal_squeezeFrom {l s : List Char} (h : Template.Literal l s) :
    Template.Literal l (squeezeFrom false false true s) :=
  h.of_head? squeezeFrom_eq_nil (head?_squeezeFrom_cases s)

/-- Items of plain text are white space or parts of words. -/
theorem plain_word {p s : List Char} (h : Template.Plain p s) : (∃ c, p = [c] ∧ isBlank c = true) ∨ Word p s := by
  cases h with
  | literal h => exact .inr (.literal h)
  | cast => exact .inr (Word.of_chars (by simp [show isBlank ':' = false by rfl]) (by simp) s)
  | colon _ => exact .inr (.char (by decide) rfl)
  | @other c _ hq _ =>
    by_cases hb : isBlank c = true
    · exact .inl ⟨c, rfl, hb⟩
    · exact .inr (.char hq (Bool.eq_false_iff.2 hb))

theorem decomposes_gap {s v : List Char} {ms : List (Template.RawMarker × List Char)} (h : Template.Decomposes s v ms)
    (pending : Bool) : Template.Decomposes (gap pending ++ s) (gap pending ++ v) ms := by
  cases pending with
  | false => exact h
  | true => exact .plain (p := [' ']) (.other (by decide) (by decide)) h

/-- What a marker becomes is squeezed already. -/
theorem squeezeFrom_placeholder {escape : Char} (he : escape ≠ '\'') (d : Marker) (pending started : Bool)
    (s : List Char) :
    squeezeFrom false pending started (Marker.placeholders 1 ++ d.escapeClause escape ++ s) =
      gap pending ++ (Marker.placeholders 1 ++ d.escapeClause escape ++ squeezeFrom false false true s) := by
  have hclause : squeezeFrom false false true (d.escapeClause escape ++ s) =
      d.escapeClause escape ++ squeezeFrom false false true s := by
    unfold Marker.escapeClause
    split
    · simp [squeezeFrom, isBlank, he]
    · rfl
  show squeezeFrom false pending started ('?' :: (d.escapeClause escape ++ s)) = _
  rw [squeezeFrom_char (by decide) rfl, hclause]
  rfl

/-- Squeezing keeps the markers of a text as they are written, and the SQL that the text is read as is squeezed
likewise. -/
theorem decomposes_squeezeFrom {s v : List Char} {ms : List (Template.RawMarker × List Char)}
    (h : Template.Decomposes s v ms) (pending started : Bool) :
    ∃ v' ms', Template.Decomposes (squeezeFrom false pending started s) v' ms' ∧
      ms'.map Prod.fst = ms.map Prod.fst ∧
      ∀ {escape : Char} {ts ts' : List (Marker × List Char)}, escape ≠ '\'' → Template.Reading ms ts →
        Template.Reading ms' ts' → ts'.map Prod.fst = ts.map Prod.fst →
          Template.expandPieces escape [] (Template.piecesOf v' ts') =
            squeezeFrom false pending started (Template.expandPieces escape [] (Template.piecesOf v ts)) := by
  induction h generalizing pending started with
  | nil => exact ⟨[], [], .nil, rfl, fun _ hts hts' _ => by cases hts; cases hts'; rfl⟩
  | @plain p s v ms hp h ih =>
    by_cases hblank : ∃ c, p = [c] ∧ isBlank c = true
    · obtain ⟨c, rfl, hc⟩ := hblank
      obtain ⟨v', ms', h', hms, hsql⟩ := ih started started
      rw [List.singleton_append, squeezeFrom_blank hc]
      refine ⟨v', ms', h', hms, fun he hts hts' hfst => ?_⟩
      rw [hsql he hts hts' hfst, Template.expandPieces_plain, List.singleton_append, squeezeFrom_blank hc]
    · -- the item is part of a word, in the text and in the SQL
      have hword := (plain_word hp).resolve_left hblank
      obtain ⟨v', ms', h', hms, hsql⟩ := ih false true
      rw [hword.squeezeFrom, List.append_assoc]
      refine ⟨_, ms', decomposes_gap (.plain (plain_squeezeFrom hp) h') pending, hms, ?_⟩
      intro escape ts ts' he hts hts' hfst
      have hplain : Template.Plain p (Template.expandPieces escape [] (Template.piecesOf v ts)) := hp.expand h hts []
      have hword := (plain_word hplain).resolve_left hblank
      simp only [Template.expandPieces_plain, hword.squeezeFrom, hsql he hts hts' hfst, List.append_assoc]
  | @marker m s v ms hm _ ih =>
    obtain ⟨v', ms', h', hms, hsql⟩ := ih false true
    rw [(marker_word hm).squeezeFrom, List.append_assoc]
    refine ⟨_, (m, v') :: ms', decomposes_gap (.marker (before_squeezeFrom hm) h') pending,
      by rw [List.map_cons, List.map_cons, hms], fun he hts hts' hfst => ?_⟩
    cases hts with
    | @cons _ t _ ts hd hts =>
      cases hts' with
      | @cons _ t' _ ts' hd' hts' =>
        obtain ⟨d, v⟩ := t
        obtain ⟨d', v'⟩ := t'
        obtain ⟨-, rfl⟩ := hd
        obtain ⟨-, rfl⟩ := hd'
        obtain ⟨rfl, hrest⟩ : d' = d ∧ ts'.map Prod.fst = ts.map Prod.fst := List.cons.inj hfst
        rw [Template.expandPieces_plain, Template.expandPieces_marker, Template.expandPieces_marker, List.headD_nil,
          List.tail_nil, hsql he hts hts' hrest, squeezeFrom_placeholder he]

/-- The markers that a text is read with depend on how they are written only. -/
theorem exists_reading_of_map_fst {ms ms' : List (Template.RawMarker × List Char)} {ts : List (Marker × List Char)}
    (hts : Template.Reading ms ts) (h : ms.map Prod.fst = ms'.map Prod.fst) :
    ∃ ts', Template.Reading ms' ts' ∧ ts'.map Prod.fst = ts.map Prod.fst := by
  induction hts generalizing ms' with
  | nil =>
    obtain rfl := List.map_eq_nil_iff.1 h.symm
    exact ⟨[], .nil, rfl⟩
  | cons hd _ ih =>
    rcases ms' with _ | ⟨m, ms'⟩
    · cases h
    obtain ⟨hm, h⟩ := List.cons.inj h
    obtain ⟨ts', hts', hfst⟩ := ih h
    exact ⟨(_, m.2) :: ts', .cons ⟨hm ▸ hd.1, rfl⟩ hts', by rw [List.map_cons, List.map_cons, hfst]⟩

/-- Squeezed or not, a text is read with the same markers. -/
theorem markers_squeeze {escape : Char} {s : List Char} {t : Template}
    (ht : Template.parse escape (String.ofList (squeeze s)) = .ok t) :
    ∃ t', Template.parse escape (String.ofList s) = .ok t' ∧ t'.markers = t.markers := by
  obtain ⟨v, ms, ts, h, hts, rfl⟩ := Template.parse_eq_ok_iff.1 ht
  obtain ⟨v₀, ms₀, h₀⟩ := Template.exists_decomposes s
  obtain ⟨v', ms', h', hms, -⟩ := decomposes_squeezeFrom h₀ false false
  rw [String.toList_ofList] at h
  obtain ⟨rfl, rfl⟩ := h.unique h'
  obtain ⟨ts₀, hts₀, hfst⟩ := exists_reading_of_map_fst hts hms
  refine ⟨_, Template.parse_eq_ok_iff.2 ⟨v₀, ms₀, ts₀, by rwa [String.toList_ofList], hts₀, rfl⟩, ?_⟩
  rw [Template.markers_piecesOf, Template.markers_piecesOf, hfst]

end Catalog

end NamedSql
