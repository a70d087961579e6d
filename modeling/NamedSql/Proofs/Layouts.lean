import NamedSql.Proofs.Walking

/-!
# Widening at the offsets

The layout of a template is widened by cutting its SQL at the offsets. The parts between them are the plain text and
the escape clauses, none of which is changed (`expandFrom_eq`). Main statement: `placeholders_at_offsets`. A template
and its layout are the same, offsets and all, and have the same SQL for any numbers of values; no part of a text is
asked for that it does not have.
-/

namespace NamedSql

open Template Text

/-- There is always one placeholder at least. -/
theorem Template.placeholders_eq_max (n : Nat) : Marker.placeholders n = Slot.questionMarks (max 1 n) := by
  cases n with
  | zero => rfl
  | succ n => rw [placeholders_eq n.succ_ne_zero, Nat.max_eq_right (Nat.le_add_left 1 n)]

section
variable {escape : Char} {v : List Char} {ts : List (Marker × List Char)} {widths : List Nat}

/-- The SQL with so many placeholders for each marker, and all else as it is with one. -/
theorem Template.expandPieces_widths (hwidths : widths.length = ts.length) :
    expandPieces escape widths (piecesOf v ts) =
      v ++ (ts.zip widths).flatMap fun t => Slot.questionMarks (max 1 t.2) ++ behind escape t.1 := by
  have hgiven := expandPieces_given escape v (ts.zip widths)
  rw [List.map_fst_zip (Nat.le_of_eq hwidths.symm), List.map_snd_zip (Nat.le_of_eq hwidths)] at hgiven
  simp only [hgiven, placeholders_eq_max, behind]

/-- The clause of a marker comes with the plain text behind it. -/
theorem Template.offsetsFrom_piecesOf (escape : Char) (pos : Nat) (v : List Char) (t : Marker × List Char)
    (ts : List (Marker × List Char)) : offsetsFrom escape pos (piecesOf v (t :: ts)) =
      (pos + width v) :: offsetsFrom escape (pos + width v + 1) (piecesOf (behind escape t) ts) := by
  have hbehind : piecesOf (behind escape t) ts = (t.1.escapeClause escape).map .sql ++ piecesOf t.2 ts := by
    rw [piecesOf, behind, List.map_append, List.append_assoc, piecesOf]
  have hpieces : piecesOf v (t :: ts) = v.map .sql ++ .marker t.1 :: piecesOf t.2 ts := by
    rw [← List.nil_append (t :: ts), piecesOf_append, piecesOf, List.flatMap_nil, List.append_nil]
  rw [hpieces, hbehind, offsetsFrom_append, offsetsFrom_append, offsetsFrom_map_sql, offsetsFrom_map_sql,
    expandPieces_sql, expandPieces_sql]
  rfl

namespace Layout

/-- What is copied at a marker is the plain text in front of it; the clause of the marker comes with the plain text
behind it. -/
theorem expandFrom_eq {sql : String} {done : List Char}
    (h : sql.toList = done ++ (v ++ ts.flatMap fun t => '?' :: behind escape t)) (hwidths : widths.length = ts.length) :
    expandFrom sql (width done) ((offsetsFrom escape (width done) (piecesOf v ts)).zip widths) =
      .ok (String.ofList
        (v ++ (ts.zip widths).flatMap fun t => Slot.questionMarks (max 1 t.2) ++ behind escape t.1)) := by
  induction ts generalizing v done widths with
  | nil =>
    have h' : sql.toList = done ++ v ++ [] := by simpa using h
    have hsize : sql.utf8ByteSize = width done + width v := by
      rw [utf8ByteSize_eq, h', List.append_nil, width_append]
    have hnone : offsetsFrom escape (width done) (piecesOf v []) = [] := by
      rw [piecesOf, List.flatMap_nil, List.append_nil, offsetsFrom_map_sql]
    rw [hnone, List.zip_nil_left, expandFrom, hsize, part_eq h']
    simp
  | cons t ts ih =>
    obtain ⟨w, widths, rfl⟩ := List.exists_cons_of_length_eq_add_one hwidths
    have hbefore : sql.toList =
        done ++ v ++ ('?' :: behind escape t ++ ts.flatMap fun t => '?' :: behind escape t) := by
      rw [h, List.flatMap_cons, List.append_assoc]
    have hbehind : sql.toList =
        done ++ v ++ ['?'] ++ (behind escape t ++ ts.flatMap fun t => '?' :: behind escape t) := by
      rw [hbefore, List.append_assoc (done ++ v), List.cons_append, List.singleton_append]
    have hwidth : width (done ++ v ++ ['?']) = width done + width v + 1 := by
      rw [width_append, width_append]
      rfl
    have hrest := ih hbehind (Nat.succ.inj hwidths)
    rw [hwidth] at hrest
    rw [offsetsFrom_piecesOf, List.zip_cons_cons, expandFrom, part_eq hbefore, hrest]
    refine congrArg Except.ok ?_
    simp only [List.zip_cons_cons, List.flatMap_cons, ← placeholders_eq_max, String.ofList_append, String.append_assoc]

end Layout

end

namespace Template

/-- A text read byte after byte has the layout of the template that it is parsed into, or the failure of its parsing,
and no more: wherever a part between two bytes is asked for, there is one. There is an offset for each marker. They
increase, and each is the byte of the question mark that stands for its marker: it has in front of it the SQL of all
that is in front of the marker in the source. Cut at the offsets and widened, the SQL is that of the template, which
has for each marker its number of question marks, but one at least, and nothing else changed. -/
theorem placeholders_at_offsets (escape : Char) (s : String) :
    (Layout.ofText escape s =
      match parse escape s with
      | .ok t => .ok t.layout
      | .error cause => .error (.malformed cause)) ∧
    ∀ t, parse escape s = .ok t →
      t.offsets.length = t.markers.length ∧ t.offsets.Pairwise (· < ·) ∧
      (∀ offset ∈ t.offsets, isAt t.sql offset '?' = true) ∧
      ∃ v ms ts, Decomposes s.toList v ms ∧ Reading ms ts ∧ t.markers = ts.map Prod.fst ∧
        t.sql.toList = v ++ (ts.flatMap fun u => '?' :: behind escape u) ∧
        (∀ i < ts.length,
          t.offsets[i]? = some (width (v ++ (ts.take i).flatMap fun u => '?' :: behind escape u))) ∧
        ∀ widths : List Nat, widths.length = ts.length →
          t.layout.expand widths = .ok (t.expand widths) ∧
          (t.expand widths).toList =
            v ++ (ts.zip widths).flatMap fun u => Slot.questionMarks (max 1 u.2) ++ behind escape u.1 := by
  refine ⟨Layout.ofText_eq escape s, fun t ht => ?_⟩
  obtain ⟨v, ms, ts, h, hts, rfl⟩ := parse_eq_ok_iff.1 ht
  set t : Template := ⟨s, escape, piecesOf v ts⟩
  have hmarkers : t.markers = ts.map Prod.fst := markers_piecesOf ..
  have hlength : t.offsets.length = t.markers.length := length_offsetsFrom escape 0 t.pieces
  have hsql : t.sql.toList = v ++ ts.flatMap fun u => '?' :: behind escape u := by
    rw [sql, expand, String.toList_ofList, expandPieces_piecesOf]
  refine ⟨hlength, pairwise_offsetsFrom escape 0 t.pieces, fun offset hoffset => ?_, v, ms, ts, h, hts, hmarkers, hsql,
    fun i hi => getElem?_offsetsFrom hi, fun widths hwidths => ⟨?_, ?_⟩⟩
  · obtain ⟨i, hi⟩ := List.getElem?_of_mem hoffset
    have hlt : i < ts.length := by
      have hi' := (List.getElem?_eq_some_iff.1 hi).1
      rwa [hlength, hmarkers, List.length_map] at hi'
    obtain rfl := Option.some.inj ((getElem?_offsetsFrom hlt).symm.trans hi)
    exact isAt_offset hsql hlt
  · have hstart : t.sql.toList = [] ++ (v ++ ts.flatMap fun u => '?' :: behind escape u) := hsql
    have hexpand := Layout.expandFrom_eq hstart hwidths
    rw [← expandPieces_widths hwidths] at hexpand
    exact hexpand
  · rw [expand, String.toList_ofList, expandPieces_widths hwidths]

def foreignText : String :=
  "é ? :%n% OR 'ü:x' = :b[] :x[3]"

/-- The text and the escape clause have characters of several bytes, and a question mark of the text stands in front
of the first placeholder. -/
theorem placeholders_at_offsets_of_foreign : ∃ t, parse '→' foreignText = .ok t ∧
    Layout.ofText '→' foreignText = .ok t.layout ∧ t.offsets = [5, 32, 34] ∧
    (∀ offset ∈ [5, 32, 34], isAt t.sql offset '?' = true) ∧
    t.layout.expand [0, 3, 1] = .ok "é ? ? ESCAPE '→' OR 'ü:x' = ?, ?, ? ?" := by
  have h : ∃ t, parse '→' foreignText = .ok t ∧ t.offsets = [5, 32, 34] ∧ t.markers.length = 3 ∧
      t.expand [0, 3, 1] = "é ? ? ESCAPE '→' OR 'ü:x' = ?, ?, ? ?" := ⟨_, by cbv, rfl, rfl, by cbv⟩
  obtain ⟨t, ht, hoffsets, hmarkers, hsql⟩ := h
  obtain ⟨hlayout, hall⟩ := placeholders_at_offsets '→' foreignText
  obtain ⟨-, -, hmarks, v, ms, ts, -, -, hts, -, -, hexpand⟩ := hall t ht
  rw [ht] at hlayout
  rw [hoffsets] at hmarks
  have hlength : [0, 3, 1].length = ts.length := by
    rw [hts, List.length_map] at hmarkers
    exact hmarkers.symm
  exact ⟨t, ht, hlayout, hoffsets, hmarks, hsql ▸ (hexpand [0, 3, 1] hlength).1⟩

end Template

end NamedSql
