import NamedSql.Proofs.Resources
import NamedSql.Workbench

/-!
# Histories of a catalog

A text declares statements if each of its blocks does, under names that differ (`Declares`), and only such a text is
taken in. Whatever was loaded before, and whether that could be taken in, a catalog answers for each resource as one
that took in nothing but the last text of this resource that could be (`Catalog.loads_isolated`).
-/

namespace NamedSql

open NamedSql.Flow

variable {σ : Type}

namespace Catalog

/-! ### What a text declares -/

/-- A block with a name in its first line and the text of a statement in the others. -/
def Block.Declares (b : Block) (name : String) (text : List Char) : Prop :=
  ∃ header body, b.lines = header :: body ∧ header? header = some name.toList ∧ statementText body = text ∧ text ≠ []

theorem readBlock_eq_ok_iff {resource : String} {b : Block} {p : String × List Char} :
    readBlock resource b = .ok p ↔ b.Declares p.1 p.2 := by
  obtain ⟨name, text⟩ := p
  unfold readBlock
  constructor
  · intro h
    split at h
    · cases h
    next header body hlines =>
      split at h
      · cases h
      next found hheader =>
        dsimp only at h
        split at h
        · cases h
        next htext =>
          obtain ⟨rfl, rfl⟩ := Prod.mk.inj (Except.ok.inj h)
          refine ⟨header, body, hlines, ?_, rfl, mt List.isEmpty_iff.2 htext⟩
          rw [hheader, String.toList_ofList]
  · rintro ⟨header, body, hlines, hheader, rfl, htext⟩
    have hempty : (statementText body).isEmpty = false := List.isEmpty_eq_false_iff.2 htext
    simp only [hlines, hheader, hempty, String.ofList_toList]
    rfl

/-- The statements of a text: each block declares one, their names differ, and each of them is a template. -/
structure Declares (escape : Char) (text : String) (statements : Resource) : Prop where
  blocks : List.Forall₂ (fun b s => ∃ sql, Block.Declares b s.1 sql ∧
    Template.parse escape (String.ofList sql) = .ok s.2) (blocks text.toList) statements
  names : (statements.map Prod.fst).Nodup

theorem readStatements_eq_ok_iff {escape : Char} {resource : String} {found statements : Resource}
    {texts : List (String × List Char)} (hfound : (found.map Prod.fst).Nodup) :
    readStatements escape resource found texts = .ok statements ↔
      ∃ added, statements = found ++ added ∧ (statements.map Prod.fst).Nodup ∧
        List.Forall₂ (fun p s => s.1 = p.1 ∧ Template.parse escape (String.ofList p.2) = .ok s.2) texts added := by
  induction texts generalizing found with
  | nil =>
    constructor
    · intro h
      obtain rfl := Except.ok.inj h
      exact ⟨[], (List.append_nil _).symm, hfound, .nil⟩
    · rintro ⟨_, rfl, -, ⟨⟩⟩
      rw [List.append_nil]
      rfl
  | cons p texts ih =>
    obtain ⟨name, text⟩ := p
    have hnew (t : Template) : (found.any (·.1 == name)) = false ↔ ((found ++ [(name, t)]).map Prod.fst).Nodup := by
      rw [List.map_append, List.nodup_append]
      simp [hfound]
    rw [readStatements]
    constructor
    · intro h
      split at h
      · cases h
      next hname =>
        split at h
        · cases h
        next t ht =>
          obtain ⟨added, rfl, hnames, hadded⟩ := (ih ((hnew t).1 (Bool.eq_false_iff.2 hname))).1 h
          exact ⟨(name, t) :: added, by simp, hnames, .cons ⟨rfl, ht⟩ hadded⟩
    · rintro ⟨_, rfl, hnames, hadded⟩
      obtain ⟨⟨first, t⟩, added, ⟨hfirst, ht⟩, hrest, rfl⟩ := List.forall₂_cons_left_iff.1 hadded
      obtain rfl : first = name := hfirst
      have hsplit : found ++ (first, t) :: added = found ++ [(first, t)] ++ added := by simp
      have hnodup : ((found ++ [(first, t)]).map Prod.fst).Nodup := by
        rw [hsplit, List.map_append] at hnames
        exact hnames.of_append_left
      rw [if_neg (by rw [(hnew t).2 hnodup]; exact Bool.false_ne_true)]
      simp only [ht]
      exact (ih hnodup).2 ⟨added, hsplit, hnames, hrest⟩

theorem forall₂_comp_iff {α β γ : Type} {r : α → β → Prop} {s : β → γ → Prop} {as : List α} {cs : List γ} :
    List.Forall₂ (fun a c => ∃ b, r a b ∧ s b c) as cs ↔ ∃ bs, List.Forall₂ r as bs ∧ List.Forall₂ s bs cs := by
  constructor
  · intro h
    induction h with
    | nil => exact ⟨[], .nil, .nil⟩
    | cons h _ ih =>
      obtain ⟨b, hab, hbc⟩ := h
      obtain ⟨bs, has, hcs⟩ := ih
      exact ⟨b :: bs, .cons hab has, .cons hbc hcs⟩
  · rintro ⟨bs, has, hcs⟩
    induction has generalizing cs with
    | nil =>
      cases hcs
      exact .nil
    | cons hab _ ih =>
      obtain ⟨c, rest, hbc, hrest, rfl⟩ := List.forall₂_cons_left_iff.1 hcs
      exact .cons ⟨_, hab, hbc⟩ (ih hrest)

/-- A text is read if and only if it declares statements, and these are what is read. -/
theorem readResource_eq_ok_iff {escape : Char} {resource text : String} {statements : Resource} :
    readResource escape resource text = .ok statements ↔ Declares escape text statements := by
  have hblocks : List.Forall₂ (fun b s => ∃ sql, Block.Declares b s.1 sql ∧
      Template.parse escape (String.ofList sql) = .ok s.2) (blocks text.toList) statements ↔
      ∃ texts, (blocks text.toList).mapM (readBlock resource) = .ok texts ∧ List.Forall₂
        (fun p s => s.1 = p.1 ∧ Template.parse escape (String.ofList p.2) = .ok s.2) texts statements := by
    simp only [mapM_eq_ok, ← forall₂_comp_iff, readBlock_eq_ok_iff, Prod.exists]
    have hjoin (b : Block) (s : String × Template) : (∃ sql, Block.Declares b s.1 sql ∧
        Template.parse escape (String.ofList sql) = .ok s.2) ↔ ∃ name sql, Block.Declares b name sql ∧ s.1 = name ∧
        Template.parse escape (String.ofList sql) = .ok s.2 := by
      constructor
      · rintro ⟨sql, hb, hsql⟩
        exact ⟨s.1, sql, hb, rfl, hsql⟩
      · rintro ⟨_, sql, hb, rfl, hsql⟩
        exact ⟨sql, hb, hsql⟩
    simp only [hjoin]
  have hnil : (([] : Resource).map Prod.fst).Nodup := List.nodup_nil
  unfold readResource
  constructor
  · intro h
    split at h
    · cases h
    next texts htexts =>
      obtain ⟨_, rfl, hnames, hadded⟩ := (readStatements_eq_ok_iff hnil).1 h
      exact ⟨hblocks.2 ⟨texts, htexts, hadded⟩, hnames⟩
  · rintro ⟨hdeclared, hnames⟩
    obtain ⟨texts, htexts, hadded⟩ := hblocks.1 hdeclared
    simp only [htexts]
    exact (readStatements_eq_ok_iff hnil).2 ⟨statements, rfl, hnames, hadded⟩

/-! ### One load -/

theorem load_eq_ok_iff {c : Catalog} {resource text : String} {n : Nat} {c' : Catalog} :
    c.load resource text = .ok (n, c') ↔ ∃ statements, Declares c.escape text statements ∧ n = statements.length ∧
      c' = { c with resources := (resource, statements) :: c.resources.filter (·.1 != resource) } := by
  rw [load]
  constructor
  · intro h
    cases hread : readResource c.escape resource text with
    | error e =>
      rw [hread] at h
      cases h
    | ok statements =>
      rw [hread] at h
      obtain ⟨rfl, rfl⟩ := Prod.mk.inj (Except.ok.inj h)
      exact ⟨statements, readResource_eq_ok_iff.1 hread, rfl, rfl⟩
  · rintro ⟨statements, hdeclared, rfl, rfl⟩
    rw [readResource_eq_ok_iff.2 hdeclared]
    rfl

theorem not_declares_of_load {c : Catalog} {resource text : String} {e : Failure}
    (h : c.load resource text = .error e) : ¬ ∃ statements, Declares c.escape text statements := by
  rintro ⟨statements, hdeclared⟩
  rw [load, readResource_eq_ok_iff.2 hdeclared] at h
  cases h

theorem lookup_filter_ne {α : Type} {name other : String} (h : other ≠ name) (l : List (String × α)) :
    (l.filter (·.1 != name)).lookup other = l.lookup other := by
  induction l with
  | nil => rfl
  | cons p l ih =>
    by_cases hp : p.1 = name
    · rw [List.filter_cons_of_neg (by simpa using hp), ih, List.lookup_cons, beq_false_of_ne (hp ▸ h)]
    · rw [List.filter_cons_of_pos (by simpa using hp), List.lookup_cons, List.lookup_cons, ih]

/-- Under names that differ each thing is found under its own. -/
theorem lookup_eq_some_iff_mem {α : Type} {l : List (String × α)} (hnames : (l.map Prod.fst).Nodup) {name : String}
    {a : α} : l.lookup name = some a ↔ (name, a) ∈ l := by
  rw [List.lookup_eq_some_iff]
  constructor
  · rintro ⟨front, back, rfl, -⟩
    simp
  · intro hmem
    obtain ⟨front, back, rfl⟩ := List.append_of_mem hmem
    refine ⟨front, back, rfl, fun p hp => ?_⟩
    rw [List.map_append] at hnames
    have hdisjoint := List.disjoint_of_nodup_append hnames
    rw [bne_iff_ne]
    rintro rfl
    exact hdisjoint (List.mem_map_of_mem hp) List.mem_cons_self

theorem template_eq_ok_iff {c : Catalog} {resource statement : String} {t : Template} :
    c.template resource statement = .ok t ↔
      ∃ statements, c.resources.lookup resource = some statements ∧ statements.lookup statement = some t := by
  unfold template
  split
  next h => simp [h]
  next statements h =>
    split
    next h' => simp [h, h']
    next t' h' => simp [h, h']

/-- What a load makes of a catalog: the statements of the text are those of its resource, and the other resources are
as they were. -/
theorem template_load {c c' : Catalog} {resource text : String} {n : Nat} (h : c.load resource text = .ok (n, c')) :
    ∃ statements, Declares c.escape text statements ∧ n = statements.length ∧
      (∀ statement t, c'.template resource statement = .ok t ↔ (statement, t) ∈ statements) ∧
      ∀ other, other ≠ resource → c'.template other = c.template other := by
  obtain ⟨statements, hdeclared, hn, rfl⟩ := load_eq_ok_iff.1 h
  refine ⟨statements, hdeclared, hn, fun statement t => ?_, fun other hother => ?_⟩
  · rw [template_eq_ok_iff, List.lookup_cons_self, ← lookup_eq_some_iff_mem hdeclared.names]
    simp
  · funext statement
    rw [template, template, List.lookup_cons, beq_false_of_ne hother]
    dsimp only
    rw [lookup_filter_ne hother]

/-- A load has the same answers for its resource whatever stood in the catalog. -/
theorem load_congr {c d : Catalog} (hescape : c.escape = d.escape) (resource text : String) :
    (∃ e, c.load resource text = .error e ∧ d.load resource text = .error e) ∨
      ∃ n c' d', c.load resource text = .ok (n, c') ∧ d.load resource text = .ok (n, d') ∧
        c'.template resource = d'.template resource := by
  unfold load
  rw [hescape]
  cases readResource d.escape resource text with
  | error e => exact .inl ⟨e, rfl, rfl⟩
  | ok statements =>
    refine .inr ⟨_, _, _, rfl, rfl, ?_⟩
    funext statement
    rw [template, template, List.lookup_cons_self, List.lookup_cons_self]

/-! ### Histories -/

/-- The catalog that takes in one text, if this can be taken in. -/
def only? (escape : Char) (resource text : String) : Option Catalog :=
  ((empty escape).load resource text).toOption.map Prod.snd

/-- The last text of a resource that can be taken in, in a catalog of its own. -/
def last? (escape : Char) (loads : List (String × String)) (resource : String) : Option Catalog :=
  loads.reverse.findSome? fun l => if l.1 = resource then only? escape l.1 l.2 else none

/-- The catalog that takes in, of a history, only the last text of a resource that can be. -/
def latest (escape : Char) (loads : List (String × String)) (resource : String) : Catalog :=
  (last? escape loads resource).getD (empty escape)

/-- The workbench after a history of loads. -/
def afterLoads (loads : List (String × String)) (w : Workbench σ) : Workbench σ :=
  (Flow.history (fun l => Workbench.loadResource l.1 l.2) loads w).2

theorem loadResource_ok {w : Workbench σ} {resource text : String} {n : Nat} {c : Catalog}
    (h : w.catalog.load resource text = .ok (n, c)) :
    Workbench.loadResource resource text w = (.done n, { w with catalog := c }) := by
  unfold Workbench.loadResource
  rw [Flow.read_bind, h]
  rfl

theorem loadResource_error {w : Workbench σ} {resource text : String} {e : Failure}
    (h : w.catalog.load resource text = .error e) :
    Workbench.loadResource resource text w = (.failed e, w) := by
  unfold Workbench.loadResource
  rw [Flow.read_bind, h]
  rfl

/-- One load changes the answers for its own resource, to those of the text alone, or none. -/
theorem template_loadResource (w : Workbench σ) (l : String × String) (other : String) :
    (Workbench.loadResource l.1 l.2 w).2.catalog.escape = w.catalog.escape ∧
      (Workbench.loadResource l.1 l.2 w).2.catalog.template other =
        ((if l.1 = other then only? w.catalog.escape l.1 l.2 else none).getD w.catalog).template other := by
  obtain ⟨resource, text⟩ := l
  have halone : w.catalog.escape = (empty w.catalog.escape).escape := rfl
  rcases load_congr halone resource text with ⟨e, hload, hempty⟩ | ⟨n, c', d', hload, hempty, heq⟩
  · rw [loadResource_error hload, only?, hempty]
    refine ⟨rfl, ?_⟩
    split <;> rfl
  · rw [loadResource_ok hload, only?, hempty]
    refine ⟨?_, ?_⟩
    · obtain ⟨_, -, -, rfl⟩ := load_eq_ok_iff.1 hload
      rfl
    · obtain ⟨_, -, -, -, hothers⟩ := template_load hload
      split
      next hresource =>
        obtain rfl : resource = other := hresource
        exact heq
      next hresource => exact hothers other (Ne.symm hresource)

/-- The invariant of a history: for each resource the answers are those of its last text that could be taken in, or
those from before the history. -/
theorem template_afterLoads (loads : List (String × String)) (w : Workbench σ) (resource : String) :
    (afterLoads loads w).catalog.escape = w.catalog.escape ∧
      (afterLoads loads w).catalog.template resource =
        ((last? w.catalog.escape loads resource).getD w.catalog).template resource := by
  induction loads generalizing w with
  | nil => exact ⟨rfl, rfl⟩
  | cons l loads ih =>
    obtain ⟨hescape, hfirst⟩ := template_loadResource w l resource
    obtain ⟨hend, hrest⟩ := ih (Workbench.loadResource l.1 l.2 w).2
    rw [hescape] at hend hrest
    refine ⟨hend, hrest.trans ?_⟩
    rw [last?, last?, List.reverse_cons, List.findSome?_append, List.findSome?_singleton]
    cases List.findSome? _ loads.reverse with
    | none => exact hfirst
    | some c => rfl

/-- After any history of loads a catalog answers for each resource as one that took in only the last text of this
resource that could be. The next load is taken in exactly if its text declares statements: then these are what is
found in its resource, their number is what it gives, and the other resources are as before. Otherwise nothing
changes. -/
theorem loads_isolated (line : Line σ) (memos : List Memo) (loads : List (String × String)) (resource text : String) :
    let escape := line.session.settings.escape
    let before := afterLoads loads (Workbench.start line memos)
    (∀ other statement,
      before.catalog.template other statement = (latest escape loads other).template other statement ∧
      before.catalog.statementSql other statement = (latest escape loads other).statementSql other statement) ∧
    match Workbench.loadResource resource text before with
    | (.done n, after) =>
        (∃ statements, Declares escape text statements ∧
          ∀ statement t, after.catalog.template resource statement = .ok t ↔ (statement, t) ∈ statements) ∧
        (∀ other, other ≠ resource → ∀ statement,
          after.catalog.template other statement = before.catalog.template other statement) ∧
        Set.encard {statement | ∃ t, after.catalog.template resource statement = .ok t} = n
    | (.failed _, after) => after = before ∧ ¬ ∃ statements, Declares escape text statements
    | (.overflow, _) => False := by
  intro escape before
  have hescape : before.catalog.escape = escape := (template_afterLoads loads _ resource).1
  refine ⟨fun other statement => ?_, ?_⟩
  · have htemplate : before.catalog.template other = (latest escape loads other).template other :=
      (template_afterLoads loads _ other).2
    rw [statementSql, statementSql, htemplate]
    exact ⟨rfl, rfl⟩
  · cases hload : before.catalog.load resource text with
    | error e =>
      rw [loadResource_error hload]
      exact ⟨rfl, hescape ▸ not_declares_of_load hload⟩
    | ok p =>
      obtain ⟨n, c⟩ := p
      obtain ⟨statements, hdeclared, rfl, hfound, hothers⟩ := template_load hload
      rw [loadResource_ok hload]
      refine ⟨⟨statements, hescape ▸ hdeclared, hfound⟩, fun other hother => congrFun (hothers other hother), ?_⟩
      have hset : {statement | ∃ t, c.template resource statement = .ok t} =
          ((statements.map Prod.fst).toFinset : Set String) := by
        ext statement
        simp [hfound]
      rw [hset, Set.encard_coe_eq_coe_finsetCard, List.toFinset_card_of_nodup hdeclared.names, List.length_map]

-- the second text names a statement twice and is not taken in; the third one replaces the first
example :
    let loads := [("r", "#a\nSELECT 1\n\n#b\nSELECT 2"), ("r", "#b\nSELECT 3\n\n#b\nSELECT 4")]
    (latest '!' loads "r").statementSql "r" "b" = .ok "SELECT 2" ∧
      (latest '!' (loads ++ [("r", "#b\nSELECT 5")]) "r").statementSql "r" "b" = .ok "SELECT 5" ∧
      (latest '!' (loads ++ [("r", "#b\nSELECT 5")]) "r").statementSql "r" "a" =
        .error (.catalog (.unknownStatement "a" "r")) := by
  refine ⟨?_, ?_, ?_⟩ <;> cbv

end Catalog

end NamedSql
