import NamedSql.Proofs.Placeholders

/-!
# Positional SQL

Where a marker becomes placeholders, texts come together that were apart. Still, what follows an item of plain text
starts as before or with a question mark, so the item stays one (`Plain.of_head?`). The only items that do not stay are
literals right behind an escape clause, which go on with the literal of the clause (`Bare.clause`). So the SQL of a
template has no markers, with any numbers of values, and read as a template it is what it is
(`positional_sql_fixed`).
-/

namespace NamedSql.Template

/-! ### Texts without markers -/

/-- A text that is plain text as a whole. -/
def Bare (s : List Char) : Prop :=
  Decomposes s s []

namespace Bare
variable {s : List Char}

theorem nil : Bare [] :=
  Decomposes.nil

theorem plain {p : List Char} (hp : Plain p s) (hs : Bare s) : Bare (p ++ s) :=
  Decomposes.plain hp hs

theorem append {w : List Char} (hw : ∀ c ∈ w, c ≠ '\'' ∧ c ≠ ':') (hs : Bare s) : Bare (w ++ s) := by
  induction w with
  | nil => exact hs
  | cons c w ih =>
    obtain ⟨⟨hq, hc⟩, hw⟩ := List.forall_mem_cons.1 hw
    exact plain (p := [c]) (.other hq hc) (ih hw)

theorem exists_plain (h : Bare s) (hs : s ≠ []) : ∃ p r, s = p ++ r ∧ Plain p r ∧ Bare r := by
  rcases exists_item hs with ⟨p, r, rfl, hp⟩ | ⟨m, r, rfl, hm⟩
  · obtain ⟨v, ms, hr⟩ := exists_decomposes r
    obtain ⟨hv, rfl⟩ := h.unique (.plain hp hr)
    obtain rfl := List.append_cancel_left hv
    exact ⟨p, r, rfl, hp, hr⟩
  · obtain ⟨v, ms, hr⟩ := exists_decomposes r
    cases (h.unique (.marker hm hr)).2

/-- A literal of one character takes in a literal that follows it at once. -/
theorem clause {c : Char} (hc : c ≠ '\'') (h : Bare s) : Bare (['\'', c, '\''] ++ s) := by
  by_cases hs : s.head? = some '\''
  · obtain ⟨p, r, rfl, hp, hr⟩ := h.exists_plain (by rintro rfl; cases hs)
    have hl : Literal p r := by
      rw [List.head?_append_of_ne_nil _ hp.ne_nil] at hs
      rcases hp.cases_head with ⟨-, hl⟩ | ⟨hcolon, -⟩ | ⟨d, rfl, hq, -⟩
      · exact hl
      · rw [hcolon] at hs; cases hs
      · exact absurd (Option.some.inj hs) hq
    rw [← List.append_assoc]
    refine plain (.literal ?_) hr
    cases hl with
    | closed hb hr => exact .closed (.char hc (.quotes hb)) hr
    | unended hb => exact .unended (.char hc (.quotes hb))
  · exact plain (.literal (.closed (.char hc .nil) hs)) h

/-- A text without markers is a template for itself. -/
theorem parse (h : Bare s) (escape : Char) :
    ∃ t, parse escape (String.ofList s) = .ok t ∧ t.markers = [] ∧ t.sql = String.ofList s := by
  refine ⟨_, parse_eq_ok_iff.2 ⟨s, [], [], by rwa [String.toList_ofList], .nil, rfl⟩, markers_piecesOf .., ?_⟩
  rw [sql_piecesOf]
  simp

end Bare

/-! ### Items in SQL -/

theorem Literal.of_head? {l s s' : List Char} (h : Literal l s) (hnil : s = [] → s' = [])
    (hhead : ∀ c ∈ s'.head?, c ∈ s.head? ∨ c = ' ' ∨ c = '?') : Literal l s' := by
  cases h with
  | closed hb hs =>
    refine .closed hb fun hq => ?_
    rcases hhead '\'' hq with hq | hq | hq
    · exact hs hq
    · cases hq
    · cases hq
  | unended hb => exact hnil rfl ▸ .unended hb

/-- What follows an item may change as long as it starts as before, or with a space or a question mark. -/
theorem Plain.of_head? {p s s' : List Char} (h : Plain p s) (hnil : s = [] → s' = [])
    (hhead : ∀ c ∈ s'.head?, c ∈ s.head? ∨ c = ' ' ∨ c = '?') : Plain p s' := by
  cases h with
  | literal h => exact .literal (h.of_head? hnil hhead)
  | cast => exact .cast
  | colon h =>
    refine .colon fun c hc => ?_
    rcases hhead c hc with hc | rfl | rfl
    · exact h c hc
    · exact ⟨by decide, isNameChar_eq_false.1 rfl⟩
    · exact ⟨by decide, isNameChar_eq_false.1 rfl⟩
  | other hq hc => exact .other hq hc

theorem expandPieces_plain (escape : Char) (widths : List Nat) (p v : List Char) (ts : List (Marker × List Char)) :
    expandPieces escape widths (piecesOf (p ++ v) ts) = p ++ expandPieces escape widths (piecesOf v ts) := by
  rw [piecesOf, piecesOf, List.map_append, List.append_assoc, expandPieces_map_sql]

theorem expandPieces_marker (escape : Char) (widths : List Nat) (d : Marker) (v : List Char)
    (ts : List (Marker × List Char)) :
    expandPieces escape widths (piecesOf [] ((d, v) :: ts)) = Marker.placeholders (widths.headD 1) ++
      d.escapeClause escape ++ expandPieces escape widths.tail (piecesOf v ts) :=
  rfl

section
variable {escape : Char} {s v : List Char} {ms : List (RawMarker × List Char)} {ts : List (Marker × List Char)}

theorem head?_expandPieces_piecesOf (h : Decomposes s v ms) (hts : Reading ms ts) (widths : List Nat) :
    ∀ c ∈ (expandPieces escape widths (piecesOf v ts)).head?, c ∈ s.head? ∨ c = ' ' ∨ c = '?' := by
  cases h with
  | nil => cases hts; nofun
  | @plain p _ _ _ hp _ =>
    obtain ⟨d, p, rfl⟩ := List.exists_cons_of_ne_nil hp.ne_nil
    exact fun c hc => .inl hc
  | marker _ _ =>
    cases hts with
    | cons _ _ =>
      intro c hc
      rw [expandPieces_marker, List.append_assoc, List.head?_append, head?_placeholders] at hc
      exact .inr (.inr (Option.some.inj hc).symm)

/-- An item of plain text is one in the SQL of a template as well. -/
theorem Plain.expand {p : List Char} (hp : Plain p s) (h : Decomposes s v ms) (hts : Reading ms ts)
    (widths : List Nat) : Plain p (expandPieces escape widths (piecesOf v ts)) := by
  refine hp.of_head? ?_ (head?_expandPieces_piecesOf h hts widths)
  rintro rfl
  obtain ⟨rfl, rfl⟩ := h.unique .nil
  cases hts
  rfl

theorem placeholders_chars (n : Nat) : ∀ c ∈ Marker.placeholders n, c ≠ '\'' ∧ c ≠ ':' := by
  fun_induction Marker.placeholders n with
  | case1 => simp
  | case2 => simp
  | case3 n _ ih => simpa using ih

theorem Bare.escapeClause (he : escape ≠ '\'') (d : Marker) (h : Bare s) : Bare (d.escapeClause escape ++ s) := by
  unfold Marker.escapeClause
  split
  · exact append (w := " ESCAPE ".toList) (by simp) (clause he h)
  · exact h

/-- The SQL has no markers, whatever numbers of values the markers of the template take. -/
theorem bare_expandPieces (he : escape ≠ '\'') (h : Decomposes s v ms) (hts : Reading ms ts) (widths : List Nat) :
    Bare (expandPieces escape widths (piecesOf v ts)) := by
  induction h generalizing ts widths with
  | nil => cases hts; exact .nil
  | plain hp h ih =>
    rw [expandPieces_plain]
    exact .plain (hp.expand h hts widths) (ih hts widths)
  | marker _ _ ih =>
    cases hts with
    | @cons _ t _ ts hd hts =>
      obtain ⟨d, v⟩ := t
      obtain ⟨-, rfl⟩ := hd
      rw [expandPieces_marker, List.append_assoc]
      exact .append (placeholders_chars _) (.escapeClause he d (ih hts _))

end

/-! ### The SQL of a template -/

/-- The SQL texts that a template is made into: with one value for each marker, filled in, or with a sequence of a
given length. -/
inductive Yields (t : Template) : String → Prop
  | sql : t.Yields t.sql
  | filled {b : Bindings} {f : Filled} (h : t.fill b = .ok f) : t.Yields f.sql
  | widened {name : String} {size : Nat} {q : String} (h : t.widen name size = .ok q) : t.Yields q

theorem Yields.exists_widths {t : Template} {q : String} (h : t.Yields q) : ∃ widths, q = t.expand widths := by
  cases h with
  | sql => exact ⟨[], rfl⟩
  | filled h =>
    unfold fill at h
    split at h
    · cases h
    · next groups _ =>
      cases h
      dsimp only
      split
      · exact ⟨groups.map List.length, rfl⟩
      · exact ⟨[], rfl⟩
  | widened h =>
    unfold widen at h
    dsimp only at h
    split at h
    · cases h
    · split at h
      · cases h
      · exact ⟨_, (Except.ok.inj h).symm⟩

/-- The SQL that a template is made into is parsed without markers, with any escape character, and its own SQL is the
text itself. -/
theorem positional_sql_fixed {escape : Char} (he : escape ≠ '\'') {s : String} {t : Template}
    (ht : parse escape s = .ok t) {q : String} (hq : t.Yields q) (escape' : Char) :
    ∃ t', parse escape' q = .ok t' ∧ t'.markers = [] ∧ t'.sql = q := by
  obtain ⟨widths, rfl⟩ := hq.exists_widths
  obtain ⟨v, ms, ts, h, hts, rfl⟩ := parse_eq_ok_iff.1 ht
  exact (bare_expandPieces he h hts widths).parse escape'

/-- A list of two values, casts next to markers, and a literal that is joined to an escape clause. -/
theorem positional_sql_fixed_of_joined : ∃ t f, parse '!' "k IN (:ks[])::::k:k AND v LIKE :v%'b:c' OR ':" = .ok t ∧
    t.fill ⟨[(.name "k", .value (.integer 7)), (.name "ks", .sequence [.integer 1, .integer 2]),
      (.name "v", .value (.text "a"))]⟩ = .ok f ∧
    f.sql = "k IN (?, ?)::::k? AND v LIKE ? ESCAPE '!''b:c' OR ':" ∧
    ∃ t', parse '!' f.sql = .ok t' ∧ t'.markers = [] ∧ t'.sql = f.sql := by
  have h : ∃ t, parse '!' "k IN (:ks[])::::k:k AND v LIKE :v%'b:c' OR ':" = .ok t ∧ ∃ f,
      t.fill ⟨[(.name "k", .value (.integer 7)), (.name "ks", .sequence [.integer 1, .integer 2]),
        (.name "v", .value (.text "a"))]⟩ = .ok f ∧
      f.sql = "k IN (?, ?)::::k? AND v LIKE ? ESCAPE '!''b:c' OR ':" :=
    ⟨_, by cbv, _, by cbv, by cbv⟩
  obtain ⟨t, ht, f, hf, hsql⟩ := h
  exact ⟨t, f, ht, hf, hsql, positional_sql_fixed (by decide) ht (.filled hf) '!'⟩

end NamedSql.Template
