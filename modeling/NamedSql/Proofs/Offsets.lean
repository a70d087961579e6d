import NamedSql.Proofs.Parts
import NamedSql.Proofs.Placeholders

/-!
# Where placeholders stand

The offsets of a template are the bytes of its SQL at which the placeholders of its markers stand: each has in front of
it the SQL of all pieces in front of its marker (`offsetsFrom_append`). So there are as many as markers, they increase,
and a question mark stands at each of them.
-/

namespace NamedSql.Template

/-! ### Offsets of pieces -/

theorem expandPieces_sql (escape : Char) (v : List Char) : expandPieces escape [] (v.map .sql) = v := by
  simpa [expandPieces] using expandPieces_map_sql escape [] v []

theorem expandPieces_singleton (escape : Char) (m : Marker) :
    expandPieces escape [] [.marker m] = '?' :: m.escapeClause escape := by
  simp [expandPieces, Marker.placeholders]

theorem offsetsFrom_sql (escape : Char) (pos : Nat) (c : Char) (ps : List Piece) :
    offsetsFrom escape pos (.sql c :: ps) = offsetsFrom escape (pos + c.utf8Size) ps := rfl

theorem offsetsFrom_marker (escape : Char) (pos : Nat) (m : Marker) (ps : List Piece) :
    offsetsFrom escape pos (.marker m :: ps) = pos :: offsetsFrom escape (pos + 1 + width (m.escapeClause escape)) ps :=
  rfl

theorem offsetsFrom_append (escape : Char) (pos : Nat) (ps qs : List Piece) :
    offsetsFrom escape pos (ps ++ qs) =
      offsetsFrom escape pos ps ++ offsetsFrom escape (pos + width (expandPieces escape [] ps)) qs := by
  induction ps generalizing pos with
  | nil => rfl
  | cons p ps ih =>
    cases p with
    | sql c => rw [List.cons_append, offsetsFrom_sql, offsetsFrom_sql, ih, expandPieces, width_cons, Nat.add_assoc]
    | marker m =>
      have hwidth : width (expandPieces escape [] (.marker m :: ps)) =
          1 + width (m.escapeClause escape) + width (expandPieces escape [] ps) := by
        rw [expandPieces, width_append, width_append]
        rfl
      rw [List.cons_append, offsetsFrom_marker, offsetsFrom_marker, ih, List.cons_append, hwidth, ← Nat.add_assoc,
        ← Nat.add_assoc]

theorem offsetsFrom_map_sql (escape : Char) (pos : Nat) (v : List Char) :
    offsetsFrom escape pos (v.map .sql) = [] := by
  induction v generalizing pos with
  | nil => rfl
  | cons c v ih => exact ih _

theorem length_offsetsFrom (escape : Char) (pos : Nat) (ps : List Piece) :
    (offsetsFrom escape pos ps).length = (ps.filterMap marker?).length := by
  induction ps generalizing pos with
  | nil => rfl
  | cons p ps ih =>
    cases p with
    | sql c => exact ih _
    | marker m => exact congrArg (· + 1) (ih _)

theorem le_of_mem_offsetsFrom {escape : Char} {pos offset : Nat} {ps : List Piece}
    (h : offset ∈ offsetsFrom escape pos ps) : pos ≤ offset := by
  induction ps generalizing pos with
  | nil => cases h
  | cons p ps ih =>
    cases p with
    | sql c => exact Nat.le_trans (Nat.le_add_right _ _) (ih h)
    | marker m =>
      rcases List.mem_cons.1 h with rfl | h
      · exact Nat.le_refl _
      · exact Nat.le_trans (Nat.le_add_right _ _) (Nat.le_trans (Nat.le_add_right _ _) (ih h))

theorem pairwise_offsetsFrom (escape : Char) (pos : Nat) (ps : List Piece) :
    (offsetsFrom escape pos ps).Pairwise (· < ·) := by
  induction ps generalizing pos with
  | nil => exact .nil
  | cons p ps ih =>
    cases p with
    | sql c => exact ih _
    | marker m =>
      refine .cons (fun offset h => ?_) (ih _)
      exact Nat.lt_of_lt_of_le (Nat.lt_succ_self pos) (Nat.le_trans (Nat.le_add_right _ _) (le_of_mem_offsetsFrom h))

/-! ### Offsets of a template -/

/-- What stands behind the question mark of a marker, up to the next marker. -/
def behind (escape : Char) (t : Marker × List Char) : List Char :=
  t.1.escapeClause escape ++ t.2

section
variable {escape : Char} {v : List Char} {ts : List (Marker × List Char)}

/-- The pieces in front of a marker, the marker, and all that follows. -/
theorem piecesOf_append (v : List Char) (ts : List (Marker × List Char)) (t : Marker × List Char)
    (us : List (Marker × List Char)) :
    piecesOf v (ts ++ t :: us) = piecesOf v ts ++ .marker t.1 :: piecesOf t.2 us := by
  simp [piecesOf]

theorem expandPieces_piecesOf (escape : Char) (v : List Char) (ts : List (Marker × List Char)) :
    expandPieces escape [] (piecesOf v ts) = v ++ ts.flatMap fun t => '?' :: behind escape t := by
  have h := sql_piecesOf "" escape v ts
  rw [sql, expand, String.ofList_inj] at h
  simp only [h, behind, ← escapeClause_eq, List.cons_append]

/-- In front of the placeholder of a marker stands the SQL of all that is in front of the marker. -/
theorem getElem?_offsetsFrom {i : Nat} (hi : i < ts.length) :
    (offsetsFrom escape 0 (piecesOf v ts))[i]? =
      some (width (v ++ (ts.take i).flatMap fun t => '?' :: behind escape t)) := by
  have hsplit : ts = ts.take i ++ ts[i] :: ts.drop (i + 1) := by
    rw [← List.drop_eq_getElem_cons hi, List.take_append_drop]
  have hlength : (offsetsFrom escape 0 (piecesOf v (ts.take i))).length = i := by
    rw [length_offsetsFrom, ← markers_eq ⟨"", escape, _⟩, markers_piecesOf, List.length_map, List.length_take]
    exact Nat.min_eq_left (Nat.le_of_lt hi)
  conv_lhs => rw [hsplit, piecesOf_append, offsetsFrom_append]
  rw [List.getElem?_append_right (Nat.le_of_eq hlength), hlength, Nat.sub_self, Nat.zero_add, expandPieces_piecesOf]
  rfl

theorem isAt_offset {q : String} (hq : q.toList = v ++ ts.flatMap fun t => '?' :: behind escape t) {i : Nat}
    (hi : i < ts.length) :
    Text.isAt q (width (v ++ (ts.take i).flatMap fun t => '?' :: behind escape t)) '?' = true := by
  have hsplit : q.toList = v ++ ((ts.take i).flatMap fun t => '?' :: behind escape t) ++
      '?' :: (behind escape ts[i] ++ (ts.drop (i + 1)).flatMap fun t => '?' :: behind escape t) := by
    conv_lhs => rw [hq, ← List.take_append_drop i ts, List.drop_eq_getElem_cons hi]
    rw [List.flatMap_append, List.flatMap_cons, List.append_assoc, List.cons_append]
  exact Text.isAt_eq_true hsplit (by decide)

end

end NamedSql.Template
