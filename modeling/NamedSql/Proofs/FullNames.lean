import NamedSql.Backend.Script
import NamedSql.Proofs.Loads
import NamedSql.Proofs.Steady
import NamedSql.Proofs.Turns
import NamedSql.Workbench.Step

/-!
# Full names

The full name of a statement is the name of its resource, a number sign and its own name. Names of resources may hold
number signs, but all that a catalog can come to find statements under is free of them (`Catalog.Reached.name_chars`).
So different statements have different full names, and whatever is done with statements that were made from a catalog,
their tables are not stored under the same key (`Catalog.fullNames_distinct`).
-/

namespace NamedSql

open NamedSql.Flow

variable {σ : Type}

namespace Catalog

/-! ### Names that are taken in -/

/-- The catalogs that come of loading texts and files into an empty one. -/
inductive Reached : Catalog → Prop
  | empty (escape : Char) : Reached (empty escape)
  | load {c c' : Catalog} {resource text : String} {n : Nat} (hc : Reached c)
      (h : c.load resource text = .ok (n, c')) : Reached c'
  | loadFile {c c' : Catalog} {path : String} {content : Option (List UInt8)} {n : Nat} (hc : Reached c)
      (h : c.loadFile path content = .ok (n, c')) : Reached c'

theorem nameChar_of_header? {l name : List Char} (h : header? l = some name) : ∀ c ∈ name, isNameChar c = true := by
  unfold header? at h
  split at h
  next s hs =>
    dsimp only at h
    split at h
    next hname =>
      obtain rfl := Option.some.inj h
      rw [Bool.and_eq_true, List.all_eq_true] at hname
      exact hname.2
    next => cases h
  next => cases h

theorem Declares.name_chars {escape : Char} {text : String} {statements : Resource}
    (h : Declares escape text statements) : ∀ s ∈ statements, ∀ c ∈ s.1.toList, isNameChar c = true := by
  have hall := h.blocks.flip.imp fun s b hb =>
    show (∀ c ∈ s.1.toList, isNameChar c = true) ∧ True from by
      obtain ⟨_, ⟨_, _, -, hheader, -⟩, -⟩ := hb
      exact ⟨nameChar_of_header? hheader, trivial⟩
  exact (List.forall₂_and_left _ _).1 hall |>.1

theorem load_of_loadFile {c c' : Catalog} {path : String} {content : Option (List UInt8)} {n : Nat}
    (h : c.loadFile path content = .ok (n, c')) : ∃ resource text, c.load resource text = .ok (n, c') := by
  unfold loadFile at h
  split at h
  next => cases h
  next resource _ =>
    split at h
    next => cases h
    next text _ => exact ⟨resource, text, h⟩

/-- The invariant of all catalogs: what they find has a name of letters, digits and the signs `_`, `.` and `-`. -/
theorem Reached.name_chars {c : Catalog} (hc : c.Reached) {resource statement : String} {t : Template}
    (h : c.template resource statement = .ok t) : ∀ ch ∈ statement.toList, isNameChar ch = true := by
  have hstep {c c' : Catalog} {loaded text : String} {n : Nat} (hload : c.load loaded text = .ok (n, c'))
      (ih : c.template resource statement = .ok t → ∀ ch ∈ statement.toList, isNameChar ch = true)
      (h : c'.template resource statement = .ok t) : ∀ ch ∈ statement.toList, isNameChar ch = true := by
    obtain ⟨statements, hdeclared, -, hfound, hothers⟩ := template_load hload
    by_cases hresource : resource = loaded
    · subst hresource
      exact hdeclared.name_chars _ ((hfound statement t).1 h)
    · exact ih (by rw [← hothers resource hresource, h])
  induction hc with
  | empty => cases h
  | load hc hload ih => exact hstep hload ih h
  | loadFile hc hfile ih =>
    obtain ⟨loaded, text, hload⟩ := load_of_loadFile hfile
    exact hstep hload ih h

/-! ### Full names -/

/-- Behind the last `x` of a list nothing is left to choose. -/
theorem append_cons_inj {α : Type} {x : α} {as bs cs ds : List α} (hbs : x ∉ bs) (hds : x ∉ ds)
    (h : as ++ x :: bs = cs ++ x :: ds) : as = cs ∧ bs = ds := by
  rcases List.append_eq_append_iff.1 h with ⟨more, rfl, hback⟩ | ⟨more, rfl, hback⟩
  · cases more with
    | nil => exact ⟨(List.append_nil _).symm, (List.cons.inj hback).2⟩
    | cons y more =>
      obtain ⟨rfl, rfl⟩ := List.cons.inj hback
      exact absurd (List.mem_append_right _ List.mem_cons_self) hbs
  · cases more with
    | nil => exact ⟨List.append_nil _, (List.cons.inj hback).2.symm⟩
    | cons y more =>
      obtain ⟨rfl, rfl⟩ := List.cons.inj hback
      exact absurd (List.mem_append_right _ List.mem_cons_self) hds

theorem fullName_inj {resource statement resource' statement' : String} (hs : '#' ∉ statement.toList)
    (hs' : '#' ∉ statement'.toList) (h : fullName resource statement = fullName resource' statement') :
    resource = resource' ∧ statement = statement' := by
  have hlist : resource.toList ++ '#' :: statement.toList = resource'.toList ++ '#' :: statement'.toList := by
    simpa [fullName] using congrArg String.toList h
  obtain ⟨hresource, hstatement⟩ := append_cons_inj hs hs' hlist
  exact ⟨String.toList_injective hresource, String.toList_injective hstatement⟩

theorem Reached.not_mem_name {c : Catalog} (hc : c.Reached) {resource statement : String} {t : Template}
    (h : c.template resource statement = .ok t) : '#' ∉ statement.toList := fun hmem => by
  cases hc.name_chars h '#' hmem

/-! ### Statements that are made from a catalog -/

/-- A statement is made from the catalog, under its full name, and then anything is done with it; in between others do
anything that does not concern the statement. -/
def Serves (b : Backend σ) (c : Catalog) (resource statement : String) (d : Desk σ) : Prop :=
  ∃ (name : String) (page : Option Page) (equipment : Equipment) (w v : Workbench σ) (st : Statement)
      (turns : List (Turn (Desk σ) Statement.Action)) (played : List (Played Failure (Desk σ) Statement.Action _)),
    w.catalog = c ∧ equipment.label = none ∧
    Workbench.addFromCatalog b name resource statement page equipment.apply w = (.done st, v) ∧
    (∀ change, .meanwhile change ∈ turns → ∀ d, (change d).statement = d.statement) ∧
    play (Statement.Action.perform b) turns (v.desk st) = (played, d)

theorem gives_addFromCatalog (b : Backend σ) (name resource statement : String) (page : Option Page)
    {equipment : Equipment} (hlabel : equipment.label = none) :
    Gives (·.label = fullName resource statement)
      (Workbench.addFromCatalog b name resource statement page equipment.apply) := by
  refine .bind fun _ => .bind fun _ => .bind fun _ => .bind fun _ => .bind fun _ => .pure ?_
  simp [Equipment.apply, hlabel]

theorem has_label (b : Backend σ) (label : String) (action : Statement.Action) :
    Obeys (.always Failure (Desk.Has (·.label = label) (fun _ => True) fun _ => True)) (action.perform b) := by
  have hlaw : Statement.CallByCall b (.always Failure (Desk.Has (·.label = label) (fun _ => True) fun _ => True)) :=
    (Backend.Minds.trivially b).callByCall (fun _ _ h => h) (.of_apart fun _ _ _ h => h)
  refine hlaw.obeys_perform (fun _ _ _ _ _ hd => ⟨hd.statement, hd.line⟩) (fun handle sql shown entries => ?_) action
  exact Statement.has_callInTime sql shown ((Backend.Minds.trivially b).limitTime handle) fun _ _ =>
    ends_of_forall (fun _ _ => trivial) (fun _ _ => trivial) fun _ => trivial

theorem Serves.label_eq {b : Backend σ} {c : Catalog} {resource statement : String} {d : Desk σ}
    (h : Serves b c resource statement d) : d.statement.label = fullName resource statement := by
  obtain ⟨name, page, equipment, w, v, st, turns, played, -, hlabel, hadd, hturns, hplay⟩ := h
  have hmade := gives_addFromCatalog b name resource statement page hlabel w
  rw [wp, hadd] at hmade
  refine (play_keeps (I := fun d => d.statement.label = fullName resource statement) (fun p _ hp _ hfound => ?_)
    (fun change hc d hd => by rw [hturns change hc, hd]) hmade hplay).2
  have hleft := (has_label b _ p.action p.found ⟨hfound, trivial, trivial⟩).left
  rw [hp.left_eq] at hleft
  exact hleft.statement

/-- Two statements that one catalog finds, or the catalog at two times, have different full names if they have
different names or stand in different resources, whatever the resources are called. Whatever is done with statements
that are made from them, on any databases, no key of the one is the same as a key of the other. -/
theorem fullNames_distinct {c c' : Catalog} (hc : c.Reached) (hc' : c'.Reached)
    {resource statement resource' statement' : String} {t t' : Template} (ht : c.template resource statement = .ok t)
    (ht' : c'.template resource' statement' = .ok t') (hne : (resource, statement) ≠ (resource', statement')) :
    fullName resource statement ≠ fullName resource' statement' ∧
    ∀ {σ σ' : Type} (b : Backend σ) (b' : Backend σ') (d : Desk σ) (d' : Desk σ'),
      Serves b c resource statement d → Serves b' c' resource' statement' d' →
      ∀ bindings bindings' page page', (MemoKey.ofPage d.statement.label bindings page).same
        (MemoKey.ofPage d'.statement.label bindings' page') = false := by
  have hnames : fullName resource statement ≠ fullName resource' statement' := by
    intro h
    obtain ⟨rfl, rfl⟩ := fullName_inj (hc.not_mem_name ht) (hc'.not_mem_name ht') h
    exact hne rfl
  refine ⟨hnames, fun b b' d d' hd hd' bindings bindings' page page' => Bool.eq_false_iff.2 fun hsame => hnames ?_⟩
  have hstatement (label : String) (bindings : Bindings) (page : Option Page) :
      (MemoKey.ofPage label bindings page).statement = label := by
    cases page <;> rfl
  simp only [MemoKey.same, Bool.and_eq_true, beq_iff_eq, hstatement, hd.label_eq, hd'.label_eq] at hsame
  exact hsame.1.1.1

/-- A workbench with a catalog, before anything was done. -/
def catalogBench (c : Catalog) : Workbench Script :=
  { Workbench.start ⟨.start "main" .default, ⟨Script.empty, .epoch⟩, []⟩ [] with catalog := c }

/-- Two statements of one name, in a resource `a` and in one that is called like the first statement's full name. -/
theorem fullNames_distinct_of_sharp : ∃ (c : Catalog) (d d' : Desk Script), c.Reached ∧
    Serves Script.streaming c "a" "b" d ∧ Serves Script.streaming c "a#b" "b" d' ∧
    fullName "a" "b" ≠ fullName "a#b" "b" ∧
    (MemoKey.ofPage d.statement.label d.statement.bindings none).same
      (MemoKey.ofPage d'.statement.label d'.statement.bindings none) = false := by
  obtain ⟨c, c', t, t', st, v, st', v', hfirst, hsecond, ht, ht', hst, hst'⟩ : ∃ c c' t t' st v st' v',
      (Catalog.empty '\\').load "a" "#b\nSELECT 1" = .ok (1, c) ∧ c.load "a#b" "#b\nSELECT 2" = .ok (1, c') ∧
      c'.template "a" "b" = .ok t ∧ c'.template "a#b" "b" = .ok t' ∧
      Workbench.addFromCatalog Script.streaming "p" "a" "b" none (Equipment.apply ⟨none, none, []⟩)
        (catalogBench c') = (.done st, v) ∧
      Workbench.addFromCatalog Script.streaming "q" "a#b" "b" none (Equipment.apply ⟨none, none, []⟩)
        (catalogBench c') = (.done st', v') :=
    ⟨_, _, _, _, _, _, _, _, by cbv, by cbv, by cbv, by cbv, by cbv, by cbv⟩
  have hreached : c'.Reached := .load (.load (.empty '\\') hfirst) hsecond
  have hserves : Serves Script.streaming c' "a" "b" (v.desk st) :=
    ⟨"p", none, ⟨none, none, []⟩, catalogBench c', v, st, [], [], rfl, rfl, hst, by simp, rfl⟩
  have hserves' : Serves Script.streaming c' "a#b" "b" (v'.desk st') :=
    ⟨"q", none, ⟨none, none, []⟩, catalogBench c', v', st', [], [], rfl, rfl, hst', by simp, rfl⟩
  obtain ⟨hnames, hkeys⟩ := fullNames_distinct hreached hreached ht ht' (by decide)
  exact ⟨c', _, _, hreached, hserves, hserves', hnames, hkeys _ _ _ _ hserves hserves' _ _ _ _⟩

end Catalog

end NamedSql
