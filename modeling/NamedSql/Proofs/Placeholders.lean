import NamedSql.Proofs.Parse
import NamedSql.Proofs.Flow
import NamedSql.Proofs.Quotes
import NamedSql.Template.Filling

/-!
# Placeholders and their values

A filled template is plain text and slots: a marker with its values and the plain text behind it. Main
statement: `fill_slots`. Outside literals the SQL has exactly the question marks of the slots, for each
slot as many as it has values, and the values stand in the order of the slots.
-/

namespace NamedSql.Template

/-! ### What a marker takes -/

/-- The values of a parameter for a marker, before they become patterns. -/
inductive Elements (d : Marker) : Param → List Value → Prop
  | value {v : Value} (h : d.subscript = none ∨ d.subscript = some .all) : Elements d (.value v) [v]
  | stream {payload : List UInt8} (h : d.subscript = none ∨ d.subscript = some .all) :
    Elements d (.stream payload) [.blob payload]
  | element {n : Nat} {items : List Value} {v : Value} (h : d.subscript = some (.at n))
    (hv : items[n]? = some v) : Elements d (.sequence items) [v]
  | all {items : List Value} (h : d.subscript = some .all) (hne : items ≠ []) :
    Elements d (.sequence items) items

/-- A value and what it is bound as under a marker. -/
inductive Wrapped (escape : Char) (d : Marker) : Value → Value → Prop
  | same {v : Value} (h : ¬ (d.openStart ∨ d.openEnd)) : Wrapped escape d v v
  | null (h : d.openStart ∨ d.openEnd) : Wrapped escape d .null .null
  | text {s : String} (h : d.openStart ∨ d.openEnd) :
    Wrapped escape d (.text s) (.text (String.ofList (d.pattern escape s.toList)))

/-- The values of the marker at a position: those of the parameter for the position if there is one,
else of the parameter of its name. -/
def Takes (escape : Char) (b : Bindings) (position : Nat) (d : Marker) (values : List Value) : Prop :=
  ∃ p raw, (b.get? (.index position) = some p ∨
      b.get? (.index position) = none ∧ b.get? (.name d.name) = some p) ∧
    Elements d p raw ∧ List.Forall₂ (Wrapped escape d) raw values

theorem Elements.single {d : Marker} {p : Param} (h : d.subscript = none ∨ d.subscript = some .all)
    (hp : ∀ items, p ≠ .sequence items) : Elements d p [p.single] := by
  cases p with
  | value v => exact .value h
  | stream payload => exact .stream h
  | sequence items => exact absurd rfl (hp items)

theorem Elements.of_pick {d : Marker} {p : Param} {values : List Value} (h : d.pick p = .ok values) :
    Elements d p values := by
  unfold Marker.pick at h
  split at h
  · cases h
  · rename_i hs hp
    cases h
    exact .single (.inl hs) hp
  · rename_i hs
    split at h
    · rename_i hv; cases h; exact .element hs hv
    · cases h
  · cases h
  · rename_i hs
    split at h
    · cases h
    · rename_i hne
      cases h
      exact .all hs (by simpa using hne)
  · rename_i hs hp
    cases h
    exact .single (.inr hs) hp

theorem isLike_iff {d : Marker} : d.isLike = true ↔ d.openStart ∨ d.openEnd := by
  rw [Marker.isLike, Bool.or_eq_true, or_comm]

theorem Wrapped.of_patternValue {escape : Char} {d : Marker} {v w : Value} (hd : d.openStart ∨ d.openEnd)
    (h : d.patternValue escape v = .ok w) : Wrapped escape d v w := by
  unfold Marker.patternValue at h
  split at h
  · cases h; exact .text hd
  · cases h; exact .null hd
  · cases h

theorem Takes.of_resolve {escape : Char} {b : Bindings} {position : Nat} {d : Marker} {p : Param}
    {values : List Value} (hp : lookup b position d = some p) (h : d.resolve escape p = .ok values) :
    Takes escape b position d values := by
  obtain ⟨raw, hraw, h⟩ := bind_eq_ok.1 h
  refine ⟨p, raw, ?_, .of_pick hraw, ?_⟩
  · unfold lookup at hp
    split at hp
    · rename_i h; rw [h]; exact .inl hp
    · rename_i h; exact .inr ⟨h, hp⟩
  · split at h
    · rename_i hd
      exact (mapM_eq_ok.1 h).imp fun _ _ => Wrapped.of_patternValue (isLike_iff.1 hd)
    · rename_i hd
      cases h
      exact List.forall₂_same.2 fun _ _ => .same (mt isLike_iff.2 hd)

theorem Takes.ne_nil {escape : Char} {b : Bindings} {position : Nat} {d : Marker} {values : List Value}
    (h : Takes escape b position d values) : values ≠ [] := by
  obtain ⟨p, raw, -, hraw, hvalues⟩ := h
  have hne : raw ≠ [] := by cases hraw <;> simp_all
  intro h
  rw [h, List.forall₂_nil_right_iff] at hvalues
  exact hne hvalues

theorem Takes.length_eq_one {escape : Char} {b : Bindings} {position : Nat} {d : Marker}
    {values : List Value} (h : Takes escape b position d values) (hd : d.takesAll = false) :
    values.length = 1 := by
  obtain ⟨p, raw, -, hraw, hvalues⟩ := h
  rw [← hvalues.length_eq]
  cases hraw with
  | value _ | stream _ | element _ _ => rfl
  | all h _ => simp [Marker.takesAll, h] at hd

/-! ### Slots -/

/-- A marker with its values and the plain text behind it. -/
structure Slot where
  marker : Marker
  values : List Value
  after : List Char

namespace Slot

/-- Question marks with commas between them. -/
def questionMarks (count : Nat) : List Char :=
  List.intercalate [',', ' '] (List.replicate count ['?'])

/-- The SQL of a slot: a question mark for each value, the escape clause if the marker is matched by
LIKE, and the plain text. -/
def sql (escape : Char) (u : Slot) : List Char :=
  questionMarks u.values.length ++ u.marker.escapeClause escape ++ u.after

/-- The places of the question marks of slots, the first of which starts at the place `n`. -/
def places (escape : Char) (n : Nat) : List Slot → List Nat
  | [] => []
  | u :: us => (List.range u.values.length).map (n + 3 * ·) ++ places escape (n + (u.sql escape).length) us

end Slot

/-! ### The SQL and the values of slots -/

theorem exists_slots {escape : Char} {b : Bindings} {position : Nat} {ts : List (Marker × List Char)}
    {groups : List (List Value)} (h : resolveAll escape b position (ts.map Prod.fst) = .ok groups) :
    ∃ us : List Slot, us.map (fun u => (u.marker, u.after)) = ts ∧ us.map Slot.values = groups ∧
      ∀ i u, us[i]? = some u → Takes escape b (position + i) u.marker u.values := by
  induction ts generalizing position groups with
  | nil =>
    cases h
    exact ⟨[], rfl, rfl, by simp⟩
  | cons t ts ih =>
    obtain ⟨d, after⟩ := t
    rw [List.map_cons, resolveAll] at h
    split at h
    rotate_left
    · cases h
    rename_i p hp
    obtain ⟨_, ⟨⟩, h⟩ := bind_eq_ok.1 h
    obtain ⟨values, hvalues, h⟩ := bind_eq_ok.1 h
    obtain ⟨others, hothers, h⟩ := bind_eq_ok.1 h
    cases h
    obtain ⟨us, hus, hgroups, htakes⟩ := ih hothers
    refine ⟨⟨d, values, after⟩ :: us, by simp [hus], by simp [hgroups], fun i u hu => ?_⟩
    cases i with
    | zero =>
      cases hu
      exact .of_resolve hp hvalues
    | succ i =>
      have := htakes i u hu
      rwa [Nat.add_assoc, Nat.add_comm 1 i] at this

theorem exists_slots_of_markers {escape : Char} {b : Bindings} {position : Nat} {ds : List Marker}
    {groups : List (List Value)} (h : resolveAll escape b position ds = .ok groups) :
    ∃ us : List Slot, us.map Slot.marker = ds ∧ us.map Slot.values = groups ∧
      ∀ i u, us[i]? = some u → Takes escape b (position + i) u.marker u.values := by
  have hds : (ds.map fun d => (d, ([] : List Char))).map Prod.fst = ds := List.map_map.trans (List.map_id _)
  rw [← hds] at h
  obtain ⟨us, hus, hgroups, htakes⟩ := exists_slots h
  exact ⟨us, by rw [← hds, ← hus, List.map_map]; rfl, hgroups, htakes⟩

theorem questionMarks_add_two (n : Nat) :
    Slot.questionMarks (n + 2) = '?' :: ',' :: ' ' :: Slot.questionMarks (n + 1) := by
  simp [Slot.questionMarks, List.replicate_succ, List.intercalate]

theorem head?_placeholders (n : Nat) : (Marker.placeholders n).head? = some '?' := by
  rcases n with _ | _ | n <;> rfl

theorem placeholders_eq {n : Nat} (hn : n ≠ 0) : Marker.placeholders n = Slot.questionMarks n := by
  induction n with
  | zero => exact absurd rfl hn
  | succ n ih =>
    cases n with
    | zero => rfl
    | succ n => rw [Marker.placeholders, ih (by simp), questionMarks_add_two]; simp

/-- The SQL of markers that are given together with the plain text behind them and their widths. -/
theorem expandPieces_given (escape : Char) (v : List Char) (us : List ((Marker × List Char) × Nat)) :
    expandPieces escape (us.map Prod.snd) (piecesOf v (us.map Prod.fst)) =
      v ++ us.flatMap fun u => Marker.placeholders u.2 ++ (u.1.1.escapeClause escape ++ u.1.2) := by
  rw [piecesOf, expandPieces_map_sql]
  congr 1
  induction us with
  | nil => rfl
  | cons u us ih =>
    simp only [List.map_cons, List.flatMap_cons, List.cons_append, expandPieces, List.headD_cons, List.tail_cons,
      expandPieces_map_sql, ih, List.append_assoc]

theorem expandPieces_slots (escape : Char) (v : List Char) (us : List Slot) (h : ∀ u ∈ us, u.values ≠ []) :
    expandPieces escape (us.map (·.values.length)) (piecesOf v (us.map fun u => (u.marker, u.after))) =
      v ++ us.flatMap (Slot.sql escape) := by
  have hgiven := expandPieces_given escape v (us.map fun u => ((u.marker, u.after), u.values.length))
  rw [List.map_map, List.map_map, List.flatMap_map] at hgiven
  refine hgiven.trans (congrArg (v ++ ·) (List.flatMap_congr fun u hu => ?_))
  have hlength : u.values.length ≠ 0 := mt List.length_eq_zero_iff.1 (h u hu)
  rw [Slot.sql, placeholders_eq hlength, List.append_assoc]

/-- Widths of one are the widths that markers have anyway. -/
theorem expandPieces_ones (escape : Char) {ws : List Nat} (h : ∀ w ∈ ws, w = 1) (p : List Piece) :
    expandPieces escape ws p = expandPieces escape [] p := by
  induction p generalizing ws with
  | nil => cases ws <;> rfl
  | cons c p ih =>
    cases c with
    | sql c => rw [expandPieces, expandPieces, ih h]
    | marker d =>
      cases ws with
      | nil => rfl
      | cons w ws =>
        obtain rfl := h w (by simp)
        rw [expandPieces, expandPieces, List.tail_cons, List.tail_nil, ih fun w hw => h w (by simp [hw])]
        rfl

/-- The widths that are left behind pieces. -/
def widthsBehind (widths : List Nat) : List Piece → List Nat
  | [] => widths
  | .sql _ :: p => widthsBehind widths p
  | .marker _ :: p => widthsBehind widths.tail p

theorem expandPieces_append (escape : Char) (widths : List Nat) (p q : List Piece) :
    expandPieces escape widths (p ++ q) =
      expandPieces escape widths p ++ expandPieces escape (widthsBehind widths p) q := by
  induction p generalizing widths with
  | nil => rfl
  | cons piece p ih =>
    cases piece with
    | sql c => simp only [List.cons_append, expandPieces, widthsBehind, ih]
    | marker m => simp only [List.cons_append, expandPieces, widthsBehind, ih, List.append_assoc]

@[simp] theorem widthsBehind_nil (p : List Piece) : widthsBehind [] p = [] := by
  induction p with
  | nil => rfl
  | cons piece p ih => cases piece <;> exact ih

/-! ### Places of question marks -/

theorem quotedAfter_questionMarks (n : Nat) : quotedAfter false (Slot.questionMarks n) = false := by
  cases n with
  | zero => rfl
  | succ n =>
    induction n with
    | zero => rfl
    | succ n ih => rw [questionMarks_add_two]; exact ih

theorem questions_questionMarks (n count : Nat) :
    questions false n (Slot.questionMarks count) = (List.range count).map (n + 3 * ·) := by
  cases count with
  | zero => rfl
  | succ count =>
    induction count generalizing n with
    | zero => rfl
    | succ count ih =>
      have h : questions false n (Slot.questionMarks (count + 2)) =
          n :: questions false (n + 3) (Slot.questionMarks (count + 1)) := by
        rw [questionMarks_add_two]; rfl
      rw [h, ih, List.range_succ_eq_map (n := count + 1), List.map_cons, List.map_map]
      congr 1
      exact List.map_congr_left fun i _ => by simp only [Function.comp_apply]; omega

theorem quotedAfter_escapeClause {escape : Char} (he : escape ≠ '\'') (d : Marker) :
    quotedAfter false (d.escapeClause escape) = false := by
  unfold Marker.escapeClause
  split
  · rw [quotedAfter_append, show quotedAfter false " ESCAPE '".toList = true by decide, quotedAfter_cons,
      if_neg he]
    rfl
  · rfl

theorem questions_escapeClause {escape : Char} (he : escape ≠ '\'') (d : Marker) (n : Nat) :
    questions false n (d.escapeClause escape) = [] := by
  unfold Marker.escapeClause
  split
  · rw [questions_append, show quotedAfter false " ESCAPE '".toList = true by decide,
      questions_plain (by decide), questions_cons he]
    simp [questions_quote]
  · rfl

theorem Plain.quotedAfter {p s : List Char} (h : Plain p s) : s = [] ∨ quotedAfter false p = false := by
  cases h with
  | literal h => exact h.quotedAfter
  | cast | colon _ => exact .inr rfl
  | other hq _ => exact .inr (by rw [quotedAfter_cons, if_neg hq]; rfl)

theorem Bracket.not_mem_quote {b s : List Char} (h : Bracket b s) : '\'' ∉ b := by
  have hdigit : ∀ ds : List Char, (∀ c ∈ ds, Digit c) → '\'' ∉ ds := fun ds hd hmem =>
    absurd (isDigit_iff.2 (hd _ hmem)) (by decide)
  cases h with
  | absent _ => simp
  | closed hd => simpa using hdigit _ hd
  | broken hd _ => simpa using hdigit _ hd

theorem RawMarker.Before.quotedAfter {m : RawMarker} {s : List Char} (h : m.Before s) :
    NamedSql.quotedAfter false m.text = false := by
  refine quotedAfter_plain (fun hmem => ?_) _
  rw [RawMarker.text, List.cons_append, List.mem_cons, List.mem_append] at hmem
  rcases hmem with hmem | hmem | hmem
  · cases hmem
  · exact absurd (isNameChar_iff.2 (h.run_name _ hmem)) (by decide)
  · exact h.bracket.not_mem_quote hmem

theorem Slot.length_places (escape : Char) (n : Nat) (us : List Slot) :
    (Slot.places escape n us).length = (us.flatMap Slot.values).length := by
  induction us generalizing n with
  | nil => rfl
  | cons u us ih => simp [Slot.places, ih]

/-- The invariant of the walk over the items of a text: between two of them no literal is open, except
where the text ends. -/
theorem questions_slots {escape : Char} (he : escape ≠ '\'') {s v : List Char} {k : Nat}
    {ms : List (RawMarker × List Char)} {us : List Slot} (h : Decomposes s v ms)
    (hus : List.Forall₂ (fun m u => m.2 = u.after) ms us) (hs : questions false k s = []) (n : Nat) :
    questions false n (v ++ us.flatMap (Slot.sql escape)) = Slot.places escape (n + v.length) us := by
  induction h generalizing us k n with
  | nil => cases hus; rfl
  | @plain p s v ms hp h ih =>
    rw [questions_append] at hs
    obtain ⟨hps, hs⟩ := List.append_eq_nil_iff.1 hs
    rw [List.append_assoc, questions_append, questions_eq_nil hps, List.nil_append]
    rcases hp.quotedAfter with rfl | hq
    · -- a literal that does not end is the last item
      obtain ⟨rfl, rfl⟩ := h.unique .nil
      cases hus
      rfl
    · rw [hq] at hs ⊢
      rw [ih hus hs, List.length_append, Nat.add_assoc]
  | @marker m s v ms hm h ih =>
    cases hus with
    | @cons _ u _ us hu hus =>
      rw [questions_append, hm.quotedAfter] at hs
      have hv := ih hus (List.append_eq_nil_iff.1 hs).2
      obtain rfl : v = u.after := hu
      simp only [List.nil_append, List.flatMap_cons, Slot.sql, List.append_assoc]
      rw [questions_append, questions_questionMarks, quotedAfter_questionMarks, questions_append,
        questions_escapeClause he, quotedAfter_escapeClause he, List.nil_append, hv, Slot.places]
      simp [Slot.sql, Nat.add_assoc]

/-- Where no marker takes a whole sequence, widening does nothing. -/
theorem expandPieces_scalars {escape : Char} {b : Bindings} {us : List Slot}
    (htakes : ∀ i u, us[i]? = some u → Takes escape b (1 + i) u.marker u.values)
    (hscalar : ∀ u ∈ us, u.marker.takesAll = false) (p : List Piece) :
    expandPieces escape [] p = expandPieces escape (us.map (·.values.length)) p := by
  refine (expandPieces_ones escape (List.forall_mem_map.2 fun u hu => ?_) p).symm
  obtain ⟨i, hi⟩ := List.getElem?_of_mem hu
  exact (htakes i u hi).length_eq_one (hscalar u hu)

/-- A template filled in is the plain text that it was read from with a slot for each marker. -/
theorem exists_slots_of_fill {escape : Char} {s : String} {t : Template} {b : Bindings} {f : Filled}
    (ht : parse escape s = .ok t) (hf : t.fill b = .ok f) :
    ∃ v ms us, Decomposes s.toList v ms ∧
      List.Forall₂ (fun m u => m.1.Reads u.marker ∧ m.2 = u.after) ms us ∧
      (∀ i u, us[i]? = some u → Takes escape b (1 + i) u.marker u.values) ∧
      f.sql = String.ofList (v ++ us.flatMap (Slot.sql escape)) ∧ f.values = us.flatMap Slot.values := by
  obtain ⟨v, ms, ts, h, hts, rfl⟩ := parse_eq_ok_iff.1 ht
  rcases hgroups : resolveAll escape b 1 (ts.map Prod.fst) with fault | groups
  · simp only [fill, markers_piecesOf, hgroups, reduceCtorEq] at hf
  · simp only [fill, markers_piecesOf, hgroups, Except.ok.injEq] at hf
    obtain ⟨us, rfl, rfl, htakes⟩ := exists_slots hgroups
    have hwide : expandPieces escape (us.map (·.values.length)) (piecesOf v (us.map fun u => (u.marker, u.after))) =
        v ++ us.flatMap (Slot.sql escape) := by
      refine expandPieces_slots escape v us fun u hu => ?_
      obtain ⟨i, hi⟩ := List.getElem?_of_mem hu
      exact (htakes i u hi).ne_nil
    refine ⟨v, ms, us, h, List.forall₂_map_right_iff.1 hts, htakes, ?_, by rw [← hf]; rfl⟩
    rw [← hwide, ← hf, List.map_map]
    dsimp only
    split
    · rfl
    · next hscalar =>
      rw [hasSequences, markers_piecesOf, List.any_eq_true, List.map_map] at hscalar
      have hnone : ∀ u ∈ us, u.marker.takesAll = false := fun u hu =>
        Bool.eq_false_iff.2 fun hall => hscalar ⟨u.marker, List.mem_map_of_mem hu, hall⟩
      rw [sql, expand, expandPieces_scalars htakes hnone]

/-- A text without question marks outside literals, filled in, is its plain text with a slot for each
marker. Each marker has the values that it takes from the bindings, and outside literals the SQL has a
question mark for each value and no other, in the same order. -/
theorem fill_slots {escape : Char} {s : String} {t : Template} {b : Bindings} {f : Filled}
    (he : escape ≠ '\'') (hs : questions false 0 s.toList = []) (ht : parse escape s = .ok t)
    (hf : t.fill b = .ok f) :
    ∃ v ms us, Decomposes s.toList v ms ∧
      List.Forall₂ (fun m u => m.1.Reads u.marker ∧ m.2 = u.after) ms us ∧
      (∀ i u, us[i]? = some u → Takes escape b (i + 1) u.marker u.values) ∧
      f.sql = String.ofList (v ++ us.flatMap (Slot.sql escape)) ∧ f.values = us.flatMap Slot.values ∧
      questions false 0 f.sql.toList = Slot.places escape v.length us ∧
      (questions false 0 f.sql.toList).length = f.values.length := by
  obtain ⟨v, ms, ts, h, hts, rfl⟩ := parse_eq_ok_iff.1 ht
  unfold fill at hf
  split at hf
  · cases hf
  rename_i groups hgroups
  rw [markers_piecesOf] at hgroups
  obtain ⟨us, rfl, rfl, htakes⟩ := exists_slots hgroups
  have hne : ∀ u ∈ us, u.values ≠ [] := by
    intro u hu
    obtain ⟨i, hi⟩ := List.getElem?_of_mem hu
    exact (htakes i u hi).ne_nil
  have hexpand := expandPieces_slots escape v us hne
  have hsql : f.sql = String.ofList (v ++ us.flatMap (Slot.sql escape)) := by
    cases hf
    dsimp only
    split
    · rw [← hexpand, expand, List.map_map]; rfl
    · -- without lists the SQL is taken as it was parsed, where every marker has one question mark
      rename_i hseq
      have hones : ∀ w ∈ us.map (·.values.length), w = 1 := by
        intro w hw
        obtain ⟨u, hu, rfl⟩ := List.mem_map.1 hw
        obtain ⟨i, hi⟩ := List.getElem?_of_mem hu
        have hall : ∀ d ∈ us.map Slot.marker, d.takesAll = false := by
          simpa [hasSequences, markers_piecesOf, Function.comp_def] using hseq
        exact (htakes i u hi).length_eq_one (hall _ (List.mem_map_of_mem hu))
      rw [← hexpand, expandPieces_ones escape hones, sql, expand]
  have hus : List.Forall₂ (fun m u => m.1.Reads u.marker ∧ m.2 = u.after) ms us :=
    List.forall₂_map_right_iff.1 hts
  have hplaces : questions false 0 f.sql.toList = Slot.places escape v.length us := by
    rw [hsql, String.toList_ofList, questions_slots he h (hus.imp fun _ _ h => h.2) hs, Nat.zero_add]
  have hvalues : f.values = us.flatMap Slot.values := by cases hf; rfl
  exact ⟨v, ms, us, h, hus, fun i u hu => Nat.add_comm 1 i ▸ htakes i u hu, hsql, hvalues, hplaces,
    by rw [hplaces, hvalues, Slot.length_places]⟩

theorem fill_slots_in_list : ∃ t f, parse '!' "'?' k IN (:ks[]) AND v LIKE :v%" = .ok t ∧
    t.fill ⟨[(.index 2, .value (.text "a")), (.name "ks", .sequence [.integer 1, .integer 2])]⟩ = .ok f ∧
    f.values.length = 3 ∧ (questions false 0 f.sql.toList).length = f.values.length := by
  have h : ∃ t, parse '!' "'?' k IN (:ks[]) AND v LIKE :v%" = .ok t ∧ ∃ f,
      t.fill ⟨[(.index 2, .value (.text "a")), (.name "ks", .sequence [.integer 1, .integer 2])]⟩ = .ok f ∧
      f.values.length = 3 :=
    ⟨_, by cbv, _, by cbv, rfl⟩
  obtain ⟨t, ht, f, hf, hvalues⟩ := h
  obtain ⟨_, _, _, _, _, _, _, _, _, hlength⟩ := fill_slots (by decide) (by decide) ht hf
  exact ⟨t, f, ht, hf, hvalues, hlength⟩

/-! ### How many values there are -/

theorem count_placeholders {n : Nat} (hn : n ≠ 0) : (Marker.placeholders n).count '?' = n := by
  induction n with
  | zero => exact absurd rfl hn
  | succ n ih =>
    cases n with
    | zero => rfl
    | succ n =>
      rw [Marker.placeholders, List.count_cons, List.count_cons, List.count_cons, ih (Nat.succ_ne_zero n)]
      · simp
      · simp

/-- The question marks of pieces beyond those that the markers have anyway. -/
theorem count_expandPieces (escape : Char) {widths : List Nat} (hne : ∀ w ∈ widths, w ≠ 0) {pieces : List Piece}
    (hlength : widths.length = (pieces.filterMap fun | .marker m => some m | .sql _ => none).length) :
    (expandPieces escape widths pieces).count '?' + widths.length =
      widths.sum + (expandPieces escape [] pieces).count '?' := by
  induction pieces generalizing widths with
  | nil =>
    obtain rfl := List.eq_nil_of_length_eq_zero hlength
    rfl
  | cons piece pieces ih =>
    cases piece with
    | sql c =>
      have hrest := ih hne hlength
      rw [expandPieces, expandPieces, List.count_cons, List.count_cons]
      omega
    | marker m =>
      rcases widths with _ | ⟨w, widths⟩
      · cases hlength
      have hrest := ih (fun w hw => hne w (List.mem_cons_of_mem _ hw)) (Nat.succ.inj hlength)
      have hw : (Marker.placeholders w).count '?' = w := count_placeholders (hne w List.mem_cons_self)
      have hone : (Marker.placeholders 1).count '?' = 1 := rfl
      simp only [expandPieces, List.headD_cons, List.headD_nil, List.tail_cons, List.tail_nil, List.count_append,
        List.length_cons, List.sum_cons, hw, hone]
      omega

/-- However a template is filled in, its SQL has as many question marks more or less as values. -/
theorem count_of_fill {t : Template} {b : Bindings} {f : Filled} (hf : t.fill b = .ok f) :
    f.sql.toList.count '?' + t.markers.length = f.values.length + t.sql.toList.count '?' := by
  rcases hgroups : resolveAll t.escape b 1 t.markers with fault | groups
  · simp only [fill, hgroups, reduceCtorEq] at hf
  simp only [fill, hgroups, Except.ok.injEq] at hf
  obtain ⟨us, hmarkers, rfl, htakes⟩ := exists_slots_of_markers hgroups
  have htaken : ∀ u ∈ us, ∃ i, Takes t.escape b (1 + i) u.marker u.values := by
    intro u hu
    obtain ⟨i, hi⟩ := List.getElem?_of_mem hu
    exact ⟨i, htakes i u hi⟩
  have hlength : us.length = t.markers.length := by
    rw [← hmarkers, List.length_map]
  rw [← hf, ← hlength, List.length_flatten, List.map_map]
  dsimp only
  have hwidths : ∀ w ∈ us.map (List.length ∘ Slot.values), w ≠ 0 := List.forall_mem_map.2 fun u hu => by
    obtain ⟨i, hi⟩ := htaken u hu
    exact mt List.length_eq_zero_iff.1 hi.ne_nil
  split
  · -- the markers take what is expanded
    have hcount := count_expandPieces t.escape hwidths (by rw [List.length_map, hlength]; rfl)
    rw [List.length_map] at hcount
    rw [expand, sql, expand, String.toList_ofList, String.toList_ofList]
    exact hcount
  · next hscalar =>
    have hone : us.map (List.length ∘ Slot.values) = List.replicate us.length 1 := by
      refine List.map_eq_replicate_iff.2 fun u hu => ?_
      obtain ⟨i, hi⟩ := htaken u hu
      refine hi.length_eq_one (Bool.eq_false_iff.2 fun hall => hscalar (List.any_eq_true.2 ⟨u.marker, ?_, hall⟩))
      rw [← hmarkers]
      exact List.mem_map_of_mem hu
    rw [hone, List.sum_replicate, Nat.smul_one_eq_cast, Nat.cast_id, Nat.add_comm]

/-- Where a template comes to the same SQL it has as many values. -/
theorem length_values_of_sql {t : Template} {b b' : Bindings} {f f' : Filled} (hf : t.fill b = .ok f)
    (hf' : t.fill b' = .ok f') (h : f.sql = f'.sql) : f.values.length = f'.values.length := by
  have hcount := count_of_fill hf
  rw [h] at hcount
  exact Nat.add_right_cancel (hcount.symm.trans (count_of_fill hf'))

end NamedSql.Template
