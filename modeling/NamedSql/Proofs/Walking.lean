import NamedSql.Proofs.Offsets

/-!
# The walk over the bytes

A text is read byte after byte as it is read piece after piece. A step over bytes is a step over the characters that
they spell, and wherever a part of the text is asked for, it lies between characters that were read before
(`Stands`). So the walk never stops for want of a part (`walk_eq`), and a template's layout is its SQL, its markers
and its offsets, or else its fault (`ofText_eq`).
-/

namespace NamedSql

/-- The layout of a template that is given by its pieces. -/
def Template.layout (t : Template) : Layout :=
  ⟨t.sql, t.markers, t.offsets⟩

namespace Layout

open Template Text Decimal

/-! ### Markers -/

theorem toNat_lt_of_isNameChar (c : Char) (hc : isNameChar c = true) : c.toNat < 128 := by
  have hle : ∀ d : Char, c ≤ d → c.toNat ≤ d.toNat := fun d h => UInt32.le_iff_toNat_le.1 h
  rcases isNameChar_iff.1 hc with ⟨-, h⟩ | ⟨-, h⟩ | ⟨-, h⟩ | rfl | rfl
  · exact Nat.lt_of_le_of_lt (hle _ h) (by decide)
  · exact Nat.lt_of_le_of_lt (hle _ h) (by decide)
  · exact Nat.lt_of_le_of_lt (hle _ h) (by decide)
  · decide
  · decide

theorem toNat_lt_of_isDigit (c : Char) (hc : isDigit c = true) : c.toNat < 128 :=
  toNat_lt_of_isNameChar c (isNameChar_iff.2 (.inr (.inr (.inl (isDigit_iff.1 hc)))))

theorem head?_ne {c : Char} {s : List Char} (h : ∀ r, s = c :: r → False) : s.head? ≠ some c := fun hc =>
  h _ (List.eq_cons_of_mem_head? hc)

section
variable {s : String} {a b : List Char}

theorem part_eq {c : List Char} (h : s.toList = a ++ b ++ c) :
    part s (width a) (width a + width b) = .ok (String.ofList b) := by
  rw [part, slice?_eq h]

/-- The part of a text that a run of ASCII characters takes up. -/
theorem part_runEnd {kind : Char → Bool} (hkind : ∀ c, kind c = true → c.toNat < 128) (h : s.toList = a ++ b) :
    part s (width a) (runEnd kind s (width a)) = .ok (String.ofList (b.takeWhile kind)) := by
  rw [runEnd_eq hkind h, ← width_takeWhile hkind, part_eq (toList_run kind h)]

/-- A bracket that is not empty, by the digits in it and what follows them. -/
theorem readSubscript_number (h : s.toList = a ++ '[' :: b) (hb : b.head? ≠ some ']') :
    readSubscript s (width a) =
      if b.takeWhile isDigit ≠ [] ∧ (b.dropWhile isDigit).head? = some ']' ∧ value (b.takeWhile isDigit) < twoTo 64 then
        .ok (some (.at (value (b.takeWhile isDigit))), width a + 1 + (b.takeWhile isDigit).length + 1)
      else .error (.malformed (.parse (width a) .badSubscript)) := by
  have h' := toList_snoc h
  have hwidth : width (a ++ ['[']) = width a + 1 := width_snoc a (by decide)
  have hopen : isAt s (width a) '[' = true := isAt_eq_true h (by decide)
  have hnoclose : isAt s (width a + 1) ']' = false := isAt_next_eq_false h (by decide) (by decide) hb
  have hend : runEnd isDigit s (width a + 1) = width a + 1 + (b.takeWhile isDigit).length :=
    hwidth ▸ runEnd_eq toNat_lt_of_isDigit h'
  have hdigits : part s (width a + 1) (width a + 1 + (b.takeWhile isDigit).length) =
      .ok (String.ofList (b.takeWhile isDigit)) := by
    rw [← hend, ← hwidth, part_runEnd toNat_lt_of_isDigit h']
  have hclose : isAt s (width a + 1 + (b.takeWhile isDigit).length) ']' = true ↔
      (b.dropWhile isDigit).head? = some ']' := by
    rw [← isAt_iff (toList_run isDigit h') (by decide), width_append, hwidth, width_takeWhile toNat_lt_of_isDigit]
  simp only [readSubscript, hopen, hnoclose, hend, hdigits, String.toList_ofList, Bool.not_true, Bool.false_eq_true,
    if_false, Nat.add_eq_left, List.length_eq_zero_iff, Bool.and_eq_true, decide_eq_true_eq, hclose]
  by_cases hnone : b.takeWhile isDigit = []
  · rw [if_pos hnone, if_neg fun h => h.1 hnone]
  · simp only [hnone, if_false, ne_eq, not_false_eq_true, true_and]

theorem readSubscript_eq (h : s.toList = a ++ b) :
    readSubscript s (width a) =
      match Template.readSubscript (width a) b with
      | .error (pos, fault) => .error (.malformed (.parse pos fault))
      | .ok (sub, rest) => .ok (sub, width a + (b.length - rest.length)) := by
  fun_cases Template.readSubscript (width a) b with
  | case1 rest =>
    have hopen : isAt s (width a) '[' = true := isAt_eq_true h (by decide)
    have hclose : isAt s (width a + 1) ']' = true := isAt_next_eq_true h (by decide) (by decide)
    have hlength : rest.length + 1 + 1 - rest.length = 2 := by omega
    simp only [readSubscript, hopen, hclose, Bool.not_true, Bool.false_eq_true, if_false, if_true, List.length_cons,
      hlength]
  | case2 t hne digits rest hrest hvalue =>
    have hlength : t.length + 1 - rest.length = 1 + digits.length + 1 := by
      have ht := congrArg List.length (List.takeWhile_append_dropWhile (p := isDigit) (l := t))
      rw [List.length_append, hrest, List.length_cons] at ht
      show t.length + 1 - rest.length = 1 + (t.takeWhile isDigit).length + 1
      omega
    have hcond : digits ≠ [] ∧ value digits < twoTo 64 := by simpa using hvalue
    rw [readSubscript_number h (head?_ne hne), if_pos ⟨hcond.1, by rw [hrest]; rfl, hcond.2⟩]
    simp only [List.length_cons, hlength, ← Nat.add_assoc]
    rfl
  | case3 t hne digits rest hrest hvalue =>
    have hcond : ¬ (digits ≠ [] ∧ value digits < twoTo 64) := by simpa using hvalue
    exact (readSubscript_number h (head?_ne hne)).trans (if_neg fun hn => hcond ⟨hn.1, hn.2.2⟩)
  | case4 t hne hrest =>
    rw [readSubscript_number h (head?_ne hne), if_neg fun hn => head?_ne hrest hn.2.1]
  | case5 _ _ hne =>
    have hopen : isAt s (width a) '[' = false := isAt_eq_false h (by decide) (head?_ne hne)
    simp [readSubscript, hopen]

/-- A marker is read from the bytes as it is from the characters. -/
theorem readMarker_eq (h : s.toList = a ++ ':' :: b) :
    readMarker s (width a) (width a + 1 + (b.takeWhile isNameChar).length) =
      match nameOfRaw (width a) (b.takeWhile isNameChar) with
      | .error (pos, fault) => .error (.malformed (.parse pos fault))
      | .ok name =>
        match Template.readSubscript (width a + 1 + (b.takeWhile isNameChar).length) (b.dropWhile isNameChar) with
        | .error (pos, fault) => .error (.malformed (.parse pos fault))
        | .ok (sub, rest) =>
          .ok (⟨name, (b.takeWhile isNameChar).head? == some '%', (b.takeWhile isNameChar).getLast? == some '%', sub⟩,
            width a + 1 + (b.length - rest.length)) := by
  have h' := toList_snoc h
  have hwidth : width (a ++ [':']) = width a + 1 := width_snoc a (by decide)
  have hend : width (a ++ [':'] ++ b.takeWhile isNameChar) = width a + 1 + (b.takeWhile isNameChar).length := by
    rw [width_append, hwidth, width_takeWhile toNat_lt_of_isNameChar]
  have hraw : part s (width a + 1) (width a + 1 + (b.takeWhile isNameChar).length) =
      .ok (String.ofList (b.takeWhile isNameChar)) := by
    have hpart := part_runEnd toNat_lt_of_isNameChar h'
    rwa [runEnd_eq toNat_lt_of_isNameChar h', hwidth] at hpart
  have hsub := readSubscript_eq (toList_run isNameChar h')
  rw [hend] at hsub
  simp only [readMarker, hraw, String.toList_ofList, hsub]
  cases nameOfRaw (width a) (b.takeWhile isNameChar) with
  | error e => rfl
  | ok name =>
    cases hrest : Template.readSubscript (width a + 1 + (b.takeWhile isNameChar).length) (b.dropWhile isNameChar) with
    | error e => rfl
    | ok r =>
      -- both count what is read from the colon on
      have hle := length_of_readSubscript hrest
      have hb := congrArg List.length (List.takeWhile_append_dropWhile (p := isNameChar) (l := b))
      rw [List.length_append] at hb
      simp only
      congr 2
      omega

end

/-! ### Steps over the text -/

section
variable {escape : Char} {s : String} {quoted : Bool} {copied i : Nat} {l : Layout} {a b : List Char} {c : Char}

/-- Bytes that are no quotes, and no colons outside literals, are passed over. -/
theorem walk_skip {n : Nat} (hn : i + n ≤ s.utf8ByteSize) (hquote : ∀ j < n, isAt s (i + j) '\'' = false)
    (hcolon : quoted = false → ∀ j < n, isAt s (i + j) ':' = false) :
    walk escape s quoted copied i l = walk escape s quoted copied (i + n) l := by
  induction n generalizing i with
  | zero => rfl
  | succ n ih =>
    have hq : isAt s i '\'' = false := hquote 0 (Nat.succ_pos n)
    have hstep : walk escape s quoted copied i l = walk escape s quoted copied (i + 1) l := by
      rw [walk, if_pos (by omega)]
      cases quoted with
      | true => simp [hq]
      | false =>
        have hc : isAt s i ':' = false := hcolon rfl 0 (Nat.succ_pos n)
        simp [hq, hc]
    have hshift : ∀ j, i + 1 + j = i + (j + 1) := fun j => by omega
    rw [hstep, ih (by omega) (fun j hj => hshift j ▸ hquote (j + 1) (Nat.succ_lt_succ hj))
      (fun h j hj => hshift j ▸ hcolon h (j + 1) (Nat.succ_lt_succ hj)), hshift]

theorem lt_utf8ByteSize (h : s.toList = a ++ c :: b) : width a < s.utf8ByteSize := by
  have hc := c.utf8Size_pos
  rw [utf8ByteSize_eq, h, width_append, width_cons]
  omega

/-- All bytes of a character without a meaning are passed over. -/
theorem walk_other (h : s.toList = a ++ c :: b) (hquote : c ≠ '\'') (hcolon : quoted = false → c ≠ ':') :
    walk escape s quoted copied (width a) l = walk escape s quoted copied (width a + c.utf8Size) l := by
  refine walk_skip ?_ (fun j hj => isAt_within h (by decide) hquote hj)
    fun hq j hj => isAt_within h (by decide) (hcolon hq) hj
  rw [utf8ByteSize_eq, h, width_append, width_cons]
  omega

/-- Within a literal a single quote ends it and nothing else does. -/
theorem walk_quoted (h : s.toList = a ++ c :: b) (hb : c = '\'' → b.head? ≠ some '\'') :
    walk escape s true copied (width a) l = walk escape s (c != '\'') copied (width a + c.utf8Size) l := by
  by_cases hc : c = '\''
  · subst hc
    have hquote : isAt s (width a) '\'' = true := isAt_eq_true h (by decide)
    have hsingle : isAt s (width a + 1) '\'' = false := isAt_next_eq_false h (by decide) (by decide) (hb rfl)
    rw [walk, if_pos (lt_utf8ByteSize h)]
    simp only [hquote, hsingle, Bool.and_false, Bool.false_eq_true, if_false, if_true, Bool.not_true, bne_self_eq_false]
    rfl
  · rw [walk_other h hc fun hq => absurd hq (by decide), bne_iff_ne.2 hc]

theorem walk_quotes (h : s.toList = a ++ '\'' :: '\'' :: b) :
    walk escape s true copied (width a) l = walk escape s true copied (width a + 2) l := by
  have hfirst : isAt s (width a) '\'' = true := isAt_eq_true h (by decide)
  have hsecond : isAt s (width a + 1) '\'' = true := isAt_next_eq_true h (by decide) (by decide)
  rw [walk, if_pos (lt_utf8ByteSize h)]
  simp [hfirst, hsecond]

/-- Outside literals a quote starts one, and nothing else but a colon has a meaning. -/
theorem walk_unquoted (h : s.toList = a ++ c :: b) (hc : c ≠ ':') :
    walk escape s false copied (width a) l = walk escape s (c == '\'') copied (width a + c.utf8Size) l := by
  by_cases hc' : c = '\''
  · subst hc'
    have hquote : isAt s (width a) '\'' = true := isAt_eq_true h (by decide)
    rw [walk, if_pos (lt_utf8ByteSize h)]
    simp only [hquote, Bool.false_eq_true, if_false, if_true, beq_self_eq_true]
    rfl
  · rw [walk_other h hc' fun _ => hc, beq_eq_false_iff_ne.2 hc']

theorem walk_cast (h : s.toList = a ++ ':' :: ':' :: b) :
    walk escape s false copied (width a) l = walk escape s false copied (width a + 2) l := by
  have hquote : isAt s (width a) '\'' = false := isAt_eq_false h (by decide) (by simp)
  have hfirst : isAt s (width a) ':' = true := isAt_eq_true h (by decide)
  have hsecond : isAt s (width a + 1) ':' = true := isAt_next_eq_true h (by decide) (by decide)
  rw [walk, if_pos (lt_utf8ByteSize h)]
  simp [hquote, hfirst, hsecond]

/-- A single colon outside literals, by the run of name characters behind it. -/
theorem walk_colon (h : s.toList = a ++ ':' :: b) (hb : b.head? ≠ some ':') :
    walk escape s false copied (width a) l =
      if b.takeWhile isNameChar = [] then walk escape s false copied (width a + 1) l
      else
        match readMarker s (width a) (width a + 1 + (b.takeWhile isNameChar).length) with
        | .error e => .error e
        | .ok (m, last) =>
          match part s copied (width a) with
          | .error e => .error e
          | .ok before => walk escape s false last last (l.place escape before m) := by
  have hquote : isAt s (width a) '\'' = false := isAt_eq_false h (by decide) (by simp)
  have hcolon : isAt s (width a) ':' = true := isAt_eq_true h (by decide)
  have hsingle : isAt s (width a + 1) ':' = false := isAt_next_eq_false h (by decide) (by decide) hb
  have hend : runEnd isNameChar s (width a + 1) = width a + 1 + (b.takeWhile isNameChar).length := by
    rw [← width_snoc a (c := ':') (by decide), runEnd_eq toNat_lt_of_isNameChar (toList_snoc h)]
  have hempty : runEnd isNameChar s (width a + 1) = width a + 1 ↔ b.takeWhile isNameChar = [] := by
    rw [hend, Nat.add_eq_left, List.length_eq_zero_iff]
  rw [walk, if_pos (lt_utf8ByteSize h), ← hend]
  simp only [hquote, hcolon, hsingle, hempty, Bool.and_false, Bool.false_eq_true, if_false, if_true]
  split
  · rfl
  · split
    · next hm => rw [hm]
    · next hm => exact hm ▸ rfl

theorem walk_end (h : s.utf8ByteSize ≤ i) :
    walk escape s quoted copied i l =
      match part s copied s.utf8ByteSize with
      | .error e => .error e
      | .ok rest => .ok { l with sql := l.sql ++ rest } := by
  rw [walk]
  exact if_neg (Nat.not_lt.2 h)

end

/-! ### The whole text -/

/-- Adds the SQL of pieces, with a placeholder for each marker. -/
def extend (escape : Char) (ps : List Piece) (l : Layout) : Layout :=
  ⟨l.sql ++ String.ofList (expandPieces escape [] ps), l.markers ++ ps.filterMap marker?,
    l.offsets ++ offsetsFrom escape l.sql.utf8ByteSize ps⟩

theorem extend_extend (escape : Char) (ps qs : List Piece) (l : Layout) :
    (l.extend escape ps).extend escape qs = l.extend escape (ps ++ qs) := by
  have hsize : (l.sql ++ String.ofList (expandPieces escape [] ps)).utf8ByteSize =
      l.sql.utf8ByteSize + width (expandPieces escape [] ps) := by
    rw [utf8ByteSize_eq, utf8ByteSize_eq, String.toList_append, String.toList_ofList, width_append]
  simp only [extend, expandPieces_append, widthsBehind_nil, offsetsFrom_append, hsize, List.filterMap_append,
    String.ofList_append, String.append_assoc, List.append_assoc]

theorem extend_sql (escape : Char) (v : List Char) (l : Layout) :
    l.extend escape (v.map .sql) = { l with sql := l.sql ++ String.ofList v } := by
  rw [extend, expandPieces_sql, offsetsFrom_map_sql, filterMap_map_sql, List.append_nil, List.append_nil]

theorem place_eq (escape : Char) (v : List Char) (m : Marker) (l : Layout) :
    l.place escape (String.ofList v) m = l.extend escape (v.map .sql ++ [.marker m]) := by
  rw [← extend_extend, extend_sql, extend, expandPieces_singleton]
  rfl

/-- The layout that comes of a scan behind the plain text `v`, which is read and not yet laid out. -/
def finish (escape : Char) (v : List Char) (l : Layout) : Parse (List Piece) → Except Stop Layout
  | .ok ps => .ok (l.extend escape (v.map .sql ++ ps))
  | .error (pos, fault) => .error (.malformed (.parse pos fault))

theorem finish_sql (escape : Char) (v w : List Char) (l : Layout) (r : Parse (List Piece)) :
    finish escape v l (prepend (w.map .sql) r) = finish escape (v ++ w) l r := by
  cases r with
  | error e => rfl
  | ok ps => rw [prepend_ok, finish, finish, List.map_append, List.append_assoc]

theorem finish_marker (escape : Char) (v : List Char) (m : Marker) (l : Layout) (r : Parse (List Piece)) :
    finish escape v l (prepend [.marker m] r) = finish escape [] (l.place escape (String.ofList v) m) r := by
  cases r with
  | error e => rfl
  | ok ps => rw [prepend_ok, finish, finish, place_eq, extend_extend, List.append_assoc]; rfl

/-- The walk stands at the byte `i`, with the plain text `v` behind what is laid out, and `rest` is still to be read. -/
structure Stands (s : String) (done v rest : List Char) (i : Nat) : Prop where
  text : s.toList = done ++ v ++ rest
  byte : i = width (done ++ v)

theorem Stands.move {s : String} {done v w rest : List Char} {i : Nat} (h : Stands s done v (w ++ rest) i) :
    Stands s done (v ++ w) rest (i + width w) where
  text := by rw [h.text, List.append_assoc, List.append_assoc, List.append_assoc]
  byte := by rw [h.byte, ← List.append_assoc, width_append (done ++ v)]

/-- A subscript takes up as many bytes as characters. -/
theorem exists_consumed {pos : Nat} {s rest : List Char} {sub : Option Subscript}
    (h : Template.readSubscript pos s = .ok (sub, rest)) : ∃ t, s = t ++ rest ∧ width t = t.length := by
  revert h
  fun_cases Template.readSubscript pos s with
  | case1 r =>
    rintro ⟨⟩
    exact ⟨['[', ']'], rfl, rfl⟩
  | case2 t _ digits r hr _ =>
    rintro ⟨⟩
    refine ⟨'[' :: (digits ++ [']']), ?_, width_ascii ?_⟩
    · rw [List.cons_append, List.append_assoc, List.singleton_append, ← hr, List.takeWhile_append_dropWhile]
    · simp only [List.mem_cons, List.mem_append, List.not_mem_nil, or_false]
      rintro c (rfl | hc | rfl)
      · decide
      · exact toNat_lt_of_isDigit c (List.mem_takeWhile_imp hc)
      · decide
  | case3 | case4 => exact nofun
  | case5 =>
    rintro ⟨⟩
    exact ⟨[], rfl, rfl⟩

/-- Behind a marker all of the text is laid out. -/
theorem Stands.pass {s : String} {done v r rest : List Char} {i pos : Nat} {sub : Option Subscript}
    (h : Stands s done v (':' :: r) i) (hsub : Template.readSubscript pos (r.dropWhile isNameChar) = .ok (sub, rest)) :
    ∃ done', Stands s done' [] rest (i + 1 + (r.length - rest.length)) := by
  obtain ⟨t, ht, hwidth⟩ := exists_consumed hsub
  have hr : r = r.takeWhile isNameChar ++ (t ++ rest) := by
    rw [← ht, List.takeWhile_append_dropWhile]
  have hname := width_takeWhile toNat_lt_of_isNameChar r
  have hlength := congrArg List.length hr
  rw [List.length_append, List.length_append] at hlength
  refine ⟨done ++ v ++ ':' :: (r.takeWhile isNameChar ++ t), ?_, ?_⟩
  · rw [h.text, List.append_nil]
    conv_lhs => rw [hr]
    simp
  · rw [h.byte, List.append_nil, width_append (done ++ v), width_cons, width_append (r.takeWhile isNameChar), hname,
      hwidth]
    have hcolon : ':'.utf8Size = 1 := rfl
    omega

theorem walk_eq {escape : Char} {s : String} {quoted : Bool} {done v rest : List Char} {l : Layout} {pos : Nat}
    (h : Stands s done v rest pos) :
    walk escape s quoted (width done) pos l = finish escape v l (scan quoted pos rest) := by
  -- a part of the text that is kept becomes plain text in front of what is read next
  fun_induction scan quoted pos rest generalizing done v l with
  | case1 quoted pos =>
    have hsize : s.utf8ByteSize = width done + width v := by
      rw [utf8ByteSize_eq, h.text, List.append_nil, width_append]
    rw [walk_end (by rw [h.byte, hsize, width_append]), hsize, part_eq h.text, finish, List.append_nil, extend_sql]
  | case2 pos r ih =>
    have hmove := h.move (w := ['\'', '\''])
    obtain ⟨htext, rfl⟩ := h
    rw [walk_quotes htext]
    exact (ih hmove).trans (finish_sql ..).symm
  | case3 pos c r hr ih =>
    have hsingle : c = '\'' → r.head? ≠ some '\'' := fun hc => head?_ne fun t => hr t hc
    have hmove := h.move (w := [c])
    obtain ⟨htext, rfl⟩ := h
    rw [walk_quoted htext hsingle]
    exact (ih hmove).trans (finish_sql ..).symm
  | case4 pos r ih =>
    have hmove := h.move (w := [':', ':'])
    obtain ⟨htext, rfl⟩ := h
    rw [walk_cast htext]
    exact (ih hmove).trans (finish_sql ..).symm
  | case5 pos r hr raw hraw =>
    rename_i ih
    have hmove := h.move (w := [':'])
    obtain ⟨htext, rfl⟩ := h
    rw [walk_colon htext (head?_ne hr), if_pos (List.isEmpty_iff.1 hraw)]
    exact (ih hmove).trans (finish_sql ..).symm
  | case6 pos r hr raw hraw e =>
    rename_i hname
    obtain ⟨htext, rfl⟩ := h
    rw [walk_colon htext (head?_ne hr), if_neg (mt List.isEmpty_iff.2 hraw), readMarker_eq htext, hname]
    rfl
  | case7 pos r hr raw hraw name hname e =>
    rename_i hsub
    obtain ⟨htext, rfl⟩ := h
    rw [walk_colon htext (head?_ne hr), if_neg (mt List.isEmpty_iff.2 hraw), readMarker_eq htext, hname]
    simp only [raw] at hsub
    simp only [hsub]
    rfl
  | case8 pos r hr raw hraw name hname subscript rest hsub =>
    rename_i m ih
    obtain ⟨done', hpass⟩ := h.pass hsub
    obtain ⟨htext, rfl⟩ := h
    have hbefore : part s (width done) (width (done ++ v)) = .ok (String.ofList v) := by
      rw [width_append, part_eq htext]
    rw [walk_colon htext (head?_ne hr), if_neg (mt List.isEmpty_iff.2 hraw), readMarker_eq htext, hname]
    simp only [raw] at hsub
    simp only [hsub, hbefore]
    have hlast := hpass.byte
    rw [List.append_nil] at hlast
    have hwalk := ih (l := l.place escape (String.ofList v) m) hpass
    rw [← hlast] at hwalk
    exact hwalk.trans (finish_marker ..).symm
  | case9 pos c r hr hc ih =>
    have hmove := h.move (w := [c])
    obtain ⟨htext, rfl⟩ := h
    rw [walk_unquoted htext hc]
    exact (ih hmove).trans (finish_sql ..).symm

/-- A text has the layout of the template that it is parsed into, or the failure of its parsing. -/
theorem ofText_eq (escape : Char) (s : String) :
    ofText escape s =
      match parse escape s with
      | .ok t => .ok t.layout
      | .error cause => .error (.malformed cause) := by
  have hstart : Stands s [] [] s.toList 0 := ⟨rfl, rfl⟩
  have hwalk : ofText escape s = finish escape [] ⟨"", [], []⟩ (scan false 0 s.toList) := walk_eq hstart
  rw [hwalk, parse]
  cases scan false 0 s.toList with
  | error e => rfl
  | ok ps =>
    simp only [finish, extend, List.map_nil, List.nil_append, String.empty_append]
    rfl

end Layout

end NamedSql
