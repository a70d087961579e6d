import NamedSql.Proofs.Grammar

/-!
# Parsing follows the grammar

`scan` reads item by item what the grammar says: plain text becomes SQL (`scan_plain`), a well formed
marker becomes its meaning (`scan_marker`), and any other marker is refused (`scan_malformed`). Main
statement: `parse_decomposes`.
-/

namespace NamedSql.Template

open Decimal

/-- The bytes that a text takes. -/
def width (s : List Char) : Nat :=
  (s.map Char.utf8Size).sum

@[simp] theorem width_nil : width [] = 0 := rfl

@[simp] theorem width_cons (c : Char) (s : List Char) : width (c :: s) = c.utf8Size + width s := rfl

@[simp] theorem width_append (s t : List Char) : width (s ++ t) = width s + width t := by
  simp [width]

/-! ### Names and subscripts -/

theorem eq_replicate_takeWhile (s : List Char) :
    s.takeWhile (· == '%') = List.replicate (s.takeWhile (· == '%')).length '%' :=
  List.eq_replicate_iff.2 ⟨rfl, fun _ hc => by simpa using List.mem_takeWhile_imp hc⟩

theorem head?_ne_percent {name s : List Char} (hne : name ≠ []) (hp : '%' ∉ name) :
    ∀ c ∈ (name ++ s).head?, (c == '%') = false := by
  obtain ⟨d, name, rfl⟩ := List.exists_cons_of_ne_nil hne
  simp at hp ⊢
  exact fun h => hp.1 h.symm

theorem dropWhile_percents {name : List Char} (i : Nat) (s : List Char) (hne : name ≠ []) (hp : '%' ∉ name) :
    (List.replicate i '%' ++ (name ++ s)).dropWhile (· == '%') = name ++ s :=
  dropWhile_run (fun _ hc => by simp [List.eq_of_mem_replicate hc]) (head?_ne_percent hne hp)

theorem head?_percents {name : List Char} (i : Nat) (s : List Char) (hne : name ≠ []) (hp : '%' ∉ name) :
    ((List.replicate i '%' ++ (name ++ s)).head? == some '%') = decide (0 < i) := by
  cases i with
  | zero =>
    have h := head?_ne_percent (s := s) hne hp
    rw [List.replicate_zero, List.nil_append, decide_eq_false (Nat.lt_irrefl 0), beq_eq_false_iff_ne]
    exact fun hc => absurd (h '%' hc) (by decide)
  | succ i => simp [List.replicate_succ]

theorem getLast?_percents {name : List Char} (j : Nat) (s : List Char) (hne : name ≠ []) (hp : '%' ∉ name) :
    ((s ++ name ++ List.replicate j '%').getLast? == some '%') = decide (0 < j) := by
  have hne' : name.reverse ≠ [] := by simpa using hne
  have hp' : '%' ∉ name.reverse := by simpa using hp
  have h := head?_percents j s.reverse hne' hp'
  rw [List.getLast?_eq_head?_reverse, List.reverse_append, List.reverse_append, List.reverse_replicate, h]

theorem nameOfRaw_eq_ok {pos : Nat} {raw : List Char} {name : String} :
    nameOfRaw pos raw = .ok name ↔ ∃ i j, raw = List.replicate i '%' ++ name.toList ++ List.replicate j '%' ∧
      name.toList ≠ [] ∧ '%' ∉ name.toList := by
  constructor
  · intro h
    unfold nameOfRaw at h
    set t := raw.dropWhile (· == '%') with ht
    set n := t.reverse.dropWhile (· == '%') with hn
    dsimp only at h
    split at h
    · cases h
    split at h
    · cases h
    cases h
    refine ⟨(raw.takeWhile (· == '%')).length, (t.reverse.takeWhile (· == '%')).length, ?_, ?_, ?_⟩
    · have e : t = n.reverse ++ (t.reverse.takeWhile (· == '%')).reverse := by
        rw [← List.reverse_append, List.takeWhile_append_dropWhile, List.reverse_reverse]
      rw [eq_replicate_takeWhile, List.reverse_replicate] at e
      rw [String.toList_ofList, List.append_assoc, ← e, ← eq_replicate_takeWhile, ht,
        List.takeWhile_append_dropWhile]
    · simp_all
    · simp_all
  · rintro ⟨i, j, rfl, hne, hp⟩
    have hp' : '%' ∉ name.toList.reverse := by simpa using hp
    have hne' : name.toList.reverse ≠ [] := by simpa using hne
    have hdrop := dropWhile_percents j [] hne' hp'
    rw [List.append_nil] at hdrop
    simp only [nameOfRaw, List.append_assoc, dropWhile_percents i _ hne hp, List.reverse_append,
      List.reverse_replicate, hdrop, List.reverse_reverse]
    simp_all

theorem readSubscript_ok {pos : Nat} {b s : List Char} {sub : Option Subscript} (h : Bracket b s)
    (hsub : Subscripts b sub) : readSubscript pos (b ++ s) = .ok (sub, s) := by
  cases hsub with
  | absent =>
    cases h with
    | absent h =>
      rw [List.nil_append, readSubscript]
      · rintro s rfl; simp at h
      · rintro s rfl; simp at h
  | all => rfl
  | «at» hne hd hv =>
    rename_i digits
    obtain ⟨d, ds, rfl⟩ := List.exists_cons_of_ne_nil hne
    have hend : ∀ c ∈ (']' :: s).head?, isDigit c = false := by
      intro c hc; obtain rfl := Option.some.inj hc; decide
    have hall : ∀ c ∈ d :: ds, isDigit c = true := fun c hc => isDigit_iff.2 (hd c hc)
    have hd : d ≠ ']' := by rintro rfl; exact absurd (hall ']' (by simp)) (by decide)
    rw [List.append_assoc, List.cons_append, List.singleton_append, readSubscript]
    · simp only [takeWhile_run hall hend, dropWhile_run hall hend]
      simp [hv]
    · rintro s h; exact hd (List.cons.inj h).1

theorem readSubscript_error {b s : List Char} (pos : Nat) (h : Bracket b s)
    (hsub : ∀ sub, ¬ Subscripts b sub) : ∃ e, readSubscript pos (b ++ s) = .error e := by
  cases h with
  | absent _ => exact absurd .absent (hsub none)
  | @closed digits _ hd =>
    have hend : ∀ c ∈ (']' :: s).head?, isDigit c = false := by
      intro c hc; obtain rfl := Option.some.inj hc; decide
    have hall : ∀ c ∈ digits, isDigit c = true := fun c hc => isDigit_iff.2 (hd c hc)
    have hne : digits ≠ [] := by rintro rfl; exact hsub _ .all
    have hv : ¬ value digits < twoTo 64 := fun hv => hsub _ (.at hne hd hv)
    obtain ⟨d, ds, rfl⟩ := List.exists_cons_of_ne_nil hne
    have hd : d ≠ ']' := by rintro rfl; exact absurd (hall ']' (by simp)) (by decide)
    rw [List.append_assoc, List.cons_append, List.singleton_append, readSubscript]
    · simp only [takeWhile_run hall hend, dropWhile_run hall hend]
      simp [hv]
    · rintro s h; exact hd (List.cons.inj h).1
  | @broken digits _ hd h =>
    have hend : ∀ c ∈ s.head?, isDigit c = false := fun c hc => isDigit_eq_false.2 (h c hc).2
    have hall : ∀ c ∈ digits, isDigit c = true := fun c hc => isDigit_iff.2 (hd c hc)
    have hs : ∀ r, s ≠ ']' :: r := by rintro r rfl; exact (h ']' rfl).1 rfl
    have hds : ∀ r, digits ++ s ≠ ']' :: r := by
      intro r he
      cases digits with
      | nil => exact hs r he
      | cons d ds =>
        obtain rfl := (List.cons.inj he).1
        exact absurd (hall ']' (by simp)) (by decide)
    rw [List.cons_append, readSubscript]
    · simp only [dropWhile_run hall hend]
      exact ⟨_, rfl⟩
    · exact hds

/-! ### Scanning items -/

/-- What a scan gives, with pieces in front. -/
def prepend (ps : List Piece) (r : Parse (List Piece)) : Parse (List Piece) :=
  r.map (ps ++ ·)

@[simp] theorem prepend_ok (ps qs : List Piece) : prepend ps (.ok qs) = .ok (ps ++ qs) := rfl

@[simp] theorem prepend_error (ps : List Piece) (e : Nat × TemplateFault) :
    prepend ps (.error e) = .error e := rfl

@[simp] theorem prepend_prepend (ps qs : List Piece) (r : Parse (List Piece)) :
    prepend ps (prepend qs r) = prepend (ps ++ qs) r := by
  cases r <;> simp

theorem scan_body {b : List Char} (hb : LiteralBody b) (pos : Nat) (s : List Char) :
    scan true pos (b ++ s) = prepend (b.map .sql) (scan true (pos + width b) s) := by
  induction hb generalizing pos with
  | nil => show scan true pos s = _; cases h : scan true pos s <;> simp [h]
  | @char c b hc _ ih =>
    have hc' : (c != '\'') = true := by simpa using hc
    rw [List.cons_append, scan, hc', ih, width_cons, ← Nat.add_assoc]
    · exact prepend_prepend [.sql c] _ _
    · exact fun _ h _ => hc h
  | @quotes b _ ih =>
    rw [List.cons_append, List.cons_append, scan, ih, width_cons, width_cons, ← Nat.add_assoc, ← Nat.add_assoc]
    exact prepend_prepend [.sql '\'', .sql '\''] _ _

theorem scan_literal {l s : List Char} (h : Literal l s) (pos : Nat) :
    scan false pos (l ++ s) = prepend (l.map .sql) (scan false (pos + width l) s) := by
  have hopen : ∀ t, scan false pos ('\'' :: t) = prepend [.sql '\''] (scan true (pos + 1) t) := by
    intro t
    rw [scan]
    · rfl
    · intro _ h _; cases h
    · intro h; cases h
  cases h with
  | @closed b _ hb hs =>
    have hclose : ∀ pos, scan true pos ('\'' :: s) = prepend [.sql '\''] (scan false (pos + 1) s) := by
      intro pos
      rw [scan]
      · rfl
      · rintro r _ rfl; exact hs rfl
    have hw : pos + width ('\'' :: b ++ ['\'']) = pos + 1 + width b + 1 := by
      rw [width_append, width_cons, ← Nat.add_assoc, ← Nat.add_assoc]; rfl
    rw [hw, List.cons_append, List.cons_append, hopen, List.append_assoc, scan_body hb, List.singleton_append,
      hclose, prepend_prepend, prepend_prepend]
    simp
  | @unended b hb =>
    rw [List.cons_append, hopen, scan_body hb, scan, scan]
    rfl

theorem scan_plain {p s : List Char} (h : Plain p s) (pos : Nat) :
    scan false pos (p ++ s) = prepend (p.map .sql) (scan false (pos + width p) s) := by
  cases h with
  | literal h => exact scan_literal h pos
  | cast => rw [List.cons_append, List.singleton_append, scan]; rfl
  | colon h =>
    have hraw : s.takeWhile isNameChar = [] := by
      cases s with
      | nil => rfl
      | cons c s => exact List.takeWhile_cons_of_neg (by rw [isNameChar_iff]; exact (h c rfl).2)
    rw [List.singleton_append, scan, hraw]
    · rfl
    · rintro r rfl; exact (h ':' rfl).1 rfl
  | @other c _ hq hc =>
    rw [List.singleton_append, scan, beq_eq_false_iff_ne.2 hq]
    · rfl
    · exact fun _ h _ => hc h
    · exact hc

/-! ### Scanning markers -/

section
variable {m : RawMarker} {s : List Char}

theorem takeWhile_before (hm : m.Before s) : (m.run ++ (m.bracket ++ s)).takeWhile isNameChar = m.run :=
  takeWhile_run (fun c hc => isNameChar_iff.2 (hm.run_name c hc))
    fun c hc => isNameChar_eq_false.2 (hm.run_end c hc)

theorem dropWhile_before (hm : m.Before s) :
    (m.run ++ (m.bracket ++ s)).dropWhile isNameChar = m.bracket ++ s :=
  dropWhile_run (fun c hc => isNameChar_iff.2 (hm.run_name c hc))
    fun c hc => isNameChar_eq_false.2 (hm.run_end c hc)

theorem run_ne_colon (hm : m.Before s) : ∀ r, m.run ++ (m.bracket ++ s) ≠ ':' :: r := by
  intro r h
  obtain ⟨c, run, hrun⟩ := List.exists_cons_of_ne_nil hm.run_ne
  rw [hrun, List.cons_append] at h
  obtain rfl := (List.cons.inj h).1
  exact nameChar_colon (hm.run_name ':' (by simp [hrun]))

theorem scan_marker {d : Marker} (hm : m.Before s) (hd : m.Reads d) (pos : Nat) :
    scan false pos (m.text ++ s) = prepend [.marker d] (scan false (pos + m.text.length) s) := by
  obtain ⟨i, j, hrun, hstart, hend⟩ := hd.run
  have hname : nameOfRaw pos m.run = .ok d.name :=
    nameOfRaw_eq_ok.2 ⟨i, j, hrun, hd.name_ne, hd.name_plain⟩
  have hsub : ∀ pos, readSubscript pos (m.bracket ++ s) = .ok (d.subscript, s) := fun pos =>
    readSubscript_ok hm.bracket hd.subscript
  have hempty : m.run.isEmpty = false := by simpa using hm.run_ne
  have hmarker : (⟨d.name, m.run.head? == some '%', m.run.getLast? == some '%', d.subscript⟩ : Marker) = d := by
    rw [hrun, getLast?_percents j _ hd.name_ne hd.name_plain, List.append_assoc,
      head?_percents i _ hd.name_ne hd.name_plain, ← hstart, ← hend]
  rw [RawMarker.text_append, scan]
  · simp only [takeWhile_before hm, hempty, Bool.false_eq_true, ↓reduceIte, hname]
    split
    · rename_i h
      rw [dropWhile_before hm, hsub] at h; cases h
    · rename_i sub rest h
      rw [dropWhile_before hm, hsub] at h
      cases h
      have hlen : pos + 1 + ((m.run ++ (m.bracket ++ s)).length - s.length) = pos + m.text.length := by
        simp only [RawMarker.text, List.length_append, List.length_cons]; omega
      rw [hmarker, hlen]
      rfl
  · exact fun r h => run_ne_colon hm r h

theorem scan_malformed (hm : m.Before s) (hw : ¬ m.WellFormed) (pos : Nat) :
    ∃ e, scan false pos (m.text ++ s) = .error e := by
  have hempty : m.run.isEmpty = false := by simpa using hm.run_ne
  rw [RawMarker.text_append, scan]
  · simp only [takeWhile_before hm, hempty, Bool.false_eq_true, ↓reduceIte]
    split
    · exact ⟨_, rfl⟩
    · rename_i name hname
      obtain ⟨i, j, hrun, hne, hp⟩ := nameOfRaw_eq_ok.1 hname
      have hsub : ∀ sub, ¬ Subscripts m.bracket sub := fun sub hsub =>
        hw ⟨⟨i, j, name.toList, hrun, hne, hp⟩, sub, hsub⟩
      obtain ⟨e, he⟩ := readSubscript_error (pos + 1 + m.run.length) hm.bracket hsub
      split
      · exact ⟨_, rfl⟩
      · rename_i h
        rw [dropWhile_before hm, takeWhile_before hm, he] at h; cases h
  · exact fun r h => run_ne_colon hm r h

end

/-! ### Scanning texts -/

/-- The pieces of plain text and of markers with the plain text behind each. -/
def piecesOf (v : List Char) (ts : List (Marker × List Char)) : List Piece :=
  v.map .sql ++ ts.flatMap fun t => .marker t.1 :: t.2.map .sql

/-- What raw markers and the plain text behind them stand for. -/
def Reading (ms : List (RawMarker × List Char)) (ts : List (Marker × List Char)) : Prop :=
  List.Forall₂ (fun m t => m.1.Reads t.1 ∧ m.2 = t.2) ms ts

theorem exists_reading {ms : List (RawMarker × List Char)} (h : ∀ m ∈ ms, m.1.WellFormed) :
    ∃ ts, Reading ms ts := by
  induction ms with
  | nil => exact ⟨[], .nil⟩
  | cons m ms ih =>
    obtain ⟨d, hd⟩ := (h m (by simp)).exists_reads
    obtain ⟨ts, hts⟩ := ih fun m hm => h m (by simp [hm])
    exact ⟨(d, m.2) :: ts, .cons ⟨hd, rfl⟩ hts⟩

theorem Reading.wellFormed {ms : List (RawMarker × List Char)} {ts : List (Marker × List Char)}
    (h : Reading ms ts) : ∀ m ∈ ms, m.1.WellFormed := by
  induction h with
  | nil => simp
  | cons hd _ ih => exact List.forall_mem_cons.2 ⟨hd.1.wellFormed, ih⟩

section
variable {s v : List Char} {ms : List (RawMarker × List Char)}

theorem scan_decomposes {ts : List (Marker × List Char)} (h : Decomposes s v ms) (hts : Reading ms ts)
    (pos : Nat) : scan false pos s = .ok (piecesOf v ts) := by
  induction h generalizing ts pos with
  | nil => cases hts; rw [scan]; rfl
  | plain hp _ ih => rw [scan_plain hp, ih hts]; simp [piecesOf]
  | marker hm _ ih =>
    cases hts with
    | @cons _ t _ ts hd hts =>
      obtain ⟨d, v⟩ := t
      obtain ⟨hd, rfl⟩ := hd
      rw [scan_marker hm hd, ih hts]
      simp [piecesOf]

theorem scan_decomposes_error (h : Decomposes s v ms) (hw : ∃ m ∈ ms, ¬ m.1.WellFormed) (pos : Nat) :
    ∃ e, scan false pos s = .error e := by
  induction h generalizing pos with
  | nil => simp at hw
  | @plain p r v ms hp _ ih =>
    obtain ⟨e, he⟩ := ih hw (pos + width p)
    exact ⟨e, by rw [scan_plain hp, he, prepend_error]⟩
  | @marker m r v ms hm _ ih =>
    by_cases hm' : m.WellFormed
    · obtain ⟨d, hd⟩ := hm'.exists_reads
      have hw' : ∃ m ∈ ms, ¬ m.1.WellFormed := by
        obtain ⟨n, hn, hw⟩ := hw
        rcases List.mem_cons.1 hn with rfl | hn
        · exact absurd hm' hw
        · exact ⟨n, hn, hw⟩
      obtain ⟨e, he⟩ := ih hw' (pos + m.text.length)
      exact ⟨e, by rw [scan_marker hm hd, he, prepend_error]⟩
    · -- the scanner stops here, whatever follows
      exact scan_malformed hm hm' pos

end

/-- A text is parsed exactly when it consists of plain text and well formed markers. -/
theorem parse_eq_ok_iff {escape : Char} {s : String} {t : Template} :
    parse escape s = .ok t ↔ ∃ v ms ts, Decomposes s.toList v ms ∧ Reading ms ts ∧
      t = ⟨s, escape, piecesOf v ts⟩ := by
  obtain ⟨v, ms, h⟩ := exists_decomposes s.toList
  constructor
  · intro ht
    by_cases hw : ∀ m ∈ ms, m.1.WellFormed
    · obtain ⟨ts, hts⟩ := exists_reading hw
      rw [parse, scan_decomposes h hts] at ht
      exact ⟨v, ms, ts, h, hts, (Except.ok.inj ht).symm⟩
    · obtain ⟨e, he⟩ := scan_decomposes_error h (by simpa using hw) 0
      rw [parse, he] at ht
      cases ht
  · rintro ⟨v', ms', ts, h', hts, rfl⟩
    rw [parse, scan_decomposes h' hts]

/-! ### The SQL of a template -/

/-- The SQL of a marker: one placeholder, and behind it the escape clause if the marker is matched by
LIKE. -/
def placeholder (escape : Char) (d : Marker) : List Char :=
  '?' :: if d.openStart ∨ d.openEnd then " ESCAPE '".toList ++ [escape, '\''] else []

/-- The marker that a piece is, if it is one. -/
def marker? : Piece → Option Marker
  | .marker m => some m
  | .sql _ => none

theorem markers_eq (t : Template) : t.markers = t.pieces.filterMap marker? := rfl

theorem filterMap_map_sql (v : List Char) : (v.map Piece.sql).filterMap marker? = [] := by
  simp [List.filterMap_map, marker?]

theorem markers_piecesOf (source : String) (escape : Char) (v : List Char) (ts : List (Marker × List Char)) :
    (⟨source, escape, piecesOf v ts⟩ : Template).markers = ts.map Prod.fst := by
  rw [markers_eq, piecesOf, List.filterMap_append, filterMap_map_sql, List.nil_append]
  induction ts with
  | nil => rfl
  | cons t ts ih =>
    rw [List.flatMap_cons, List.filterMap_append, ih, List.filterMap_cons, filterMap_map_sql]
    rfl

theorem expandPieces_map_sql (escape : Char) (ws : List Nat) (v : List Char) (p : List Piece) :
    expandPieces escape ws (v.map .sql ++ p) = v ++ expandPieces escape ws p := by
  induction v with
  | nil => rfl
  | cons c v ih => simp only [List.map_cons, List.cons_append, expandPieces, ih]

theorem escapeClause_eq (escape : Char) (d : Marker) :
    '?' :: d.escapeClause escape = placeholder escape d := by
  have hlike : d.isLike = true ↔ d.openStart ∨ d.openEnd := by
    rw [Marker.isLike, Bool.or_eq_true, or_comm]
  simp only [Marker.escapeClause, placeholder, hlike]

theorem sql_piecesOf (source : String) (escape : Char) (v : List Char) (ts : List (Marker × List Char)) :
    (⟨source, escape, piecesOf v ts⟩ : Template).sql =
      String.ofList (v ++ ts.flatMap fun t => placeholder escape t.1 ++ t.2) := by
  rw [sql, expand, piecesOf, expandPieces_map_sql]
  congr 2
  induction ts with
  | nil => rfl
  | cons t ts ih =>
    simp only [List.flatMap_cons, List.cons_append, expandPieces, List.headD_nil, List.tail_nil,
      Marker.placeholders, expandPieces_map_sql, ih, ← escapeClause_eq, List.append_assoc, List.nil_append]

/-- A text is plain text and markers in exactly one way. It is parsed exactly when all its markers are
well formed; then the template has their meanings in their order, and its SQL is the text with a
placeholder for each marker. -/
theorem parse_decomposes (escape : Char) (s : String) :
    ∃ v ms, (Decomposes s.toList v ms ∧ ∀ v' ms', Decomposes s.toList v' ms' → v' = v ∧ ms' = ms) ∧
      s.toList = v ++ ms.flatMap (fun m => m.1.text ++ m.2) ∧
      ((∃ t, parse escape s = .ok t) ↔ ∀ m ∈ ms, m.1.WellFormed) ∧
      ∀ t, parse escape s = .ok t → t.source = s ∧ t.escape = escape ∧
        ∃ ts, Reading ms ts ∧ t.markers = ts.map Prod.fst ∧
          t.sql = String.ofList (v ++ ts.flatMap fun u => placeholder escape u.1 ++ u.2) := by
  obtain ⟨v, ms, h⟩ := exists_decomposes s.toList
  refine ⟨v, ms, ⟨h, fun v' ms' h' => h'.unique h⟩, h.join, ⟨?_, ?_⟩, ?_⟩
  · rintro ⟨t, ht⟩
    obtain ⟨v', ms', ts, h', hts, -⟩ := parse_eq_ok_iff.1 ht
    obtain ⟨rfl, rfl⟩ := h.unique h'
    exact hts.wellFormed
  · intro hw
    obtain ⟨ts, hts⟩ := exists_reading hw
    exact ⟨_, parse_eq_ok_iff.2 ⟨v, ms, ts, h, hts, rfl⟩⟩
  · intro t ht
    obtain ⟨v', ms', ts, h', hts, rfl⟩ := parse_eq_ok_iff.1 ht
    obtain ⟨rfl, rfl⟩ := h.unique h'
    exact ⟨rfl, rfl, ts, hts, markers_piecesOf .., sql_piecesOf ..⟩

end NamedSql.Template
