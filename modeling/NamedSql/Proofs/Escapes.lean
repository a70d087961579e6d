import NamedSql.Backend.KeyTable.Pattern
import NamedSql.Session
import NamedSql.Proofs.Placeholders
import NamedSql.Proofs.Wildcards

/-!
# Escape characters that are accepted

Settings are accepted when they are checked, read from a document, or given to a session
(`Settings.Accepted`). Behind each marker that is matched by LIKE the SQL names the escape character in a literal
(`Template.expand_clause`), and the texts for the marker are bound as patterns. With every accepted escape
character but the percent sign the patterns match what the marker says (`Settings.patterns_followed`); the percent
sign is accepted as well, and with it a pattern ends in an escape character (`Settings.percent_dangles`).
-/

namespace NamedSql

/-! ### The escape clause -/

namespace Template

theorem exists_placeholders (n : Nat) : ∃ marks, Marker.placeholders n = marks ++ ['?'] := by
  fun_induction Marker.placeholders n with
  | case1 => exact ⟨[], rfl⟩
  | case2 => exact ⟨[], rfl⟩
  | case3 n _ ih =>
    obtain ⟨marks, hmarks⟩ := ih
    exact ⟨'?' :: ',' :: ' ' :: marks, by rw [hmarks]; rfl⟩

/-- The SQL of pieces starts with a quote only if the first piece is one. -/
theorem head?_expandPieces (escape : Char) (widths : List Nat) {p : List Piece}
    (h : p.head? ≠ some (.sql '\'')) : (expandPieces escape widths p).head? ≠ some '\'' := by
  cases p with
  | nil => simp [expandPieces]
  | cons piece p =>
    cases piece with
    | sql c =>
      simp only [expandPieces, List.head?_cons, ne_eq, Option.some.injEq]
      rintro rfl
      exact h rfl
    | marker m =>
      have hmarks := head?_placeholders (widths.headD 1)
      rw [expandPieces, List.append_assoc, List.head?_append, hmarks]
      simp

/-- Behind the placeholders of a marker that is matched by LIKE stands the escape character between quotes. -/
theorem expand_clause {t : Template} {m : Marker} {before after : List Piece}
    (hm : t.pieces = before ++ .marker m :: after) (hlike : m.isLike = true) (widths : List Nat) :
    ∃ front rest, (t.expand widths).toList = front ++ '?' :: " ESCAPE ".toList ++ ['\'', t.escape, '\''] ++ rest ∧
      (after.head? ≠ some (.sql '\'') → rest.head? ≠ some '\'') := by
  obtain ⟨marks, hmarks⟩ := exists_placeholders ((widthsBehind widths before).headD 1)
  refine ⟨expandPieces t.escape widths before ++ marks,
    expandPieces t.escape (widthsBehind widths before).tail after, ?_, head?_expandPieces _ _⟩
  have hclause : m.escapeClause t.escape = " ESCAPE ".toList ++ ['\'', t.escape, '\''] := by
    rw [Marker.escapeClause, if_pos hlike]
    rfl
  rw [expand, String.toList_ofList, hm, expandPieces_append]
  simp only [expandPieces, hmarks, hclause, List.append_assoc, List.cons_append, List.nil_append]

/-- Any character but a quote is a literal on its own, unless a quote follows. -/
theorem literal_singleton {c : Char} (hc : c ≠ '\'') {s : List Char} (hs : s.head? ≠ some '\'') :
    Literal ['\'', c, '\''] s :=
  .closed (.char hc .nil) hs

end Template

/-! ### Bound patterns -/

/-- The pattern `w` is bound for the text `v`: it escapes it as a whole, and matches the texts that the marker lets
through for it. -/
def Marker.Follows (m : Marker) (escape : Char) (v w : String) : Prop :=
  ¬ Like.Dangling escape w.toList ∧ ∀ s, Like.Matches escape w.toList s ↔ m.Admits v.toList s

/-- Texts become patterns, and NULL stays NULL. -/
theorem Marker.resolve_texts {m : Marker} {escape : Char} (he : escape ≠ '%') (hlike : m.isLike = true) {p : Param}
    {values : List Value} (hp : m.pick p = .ok values) (hvalues : ∀ v ∈ values, v = .null ∨ ∃ x, v = .text x) :
    ∃ bound, m.resolve escape p = .ok bound ∧
      List.Forall₂ (fun v w => ∀ x, v = .text x → ∃ y, w = .text y ∧ m.Follows escape x y) values bound := by
  have hbound : ∃ bound, values.mapM (m.patternValue escape) = .ok bound ∧
      List.Forall₂ (fun v w => ∀ x, v = .text x → ∃ y, w = .text y ∧ m.Follows escape x y) values bound := by
    clear hp
    induction values with
    | nil => exact ⟨[], rfl, .nil⟩
    | cons v values ih =>
      obtain ⟨bound, hmap, hfollows⟩ := ih fun v hv => hvalues v (List.mem_cons_of_mem _ hv)
      rcases hvalues v List.mem_cons_self with rfl | ⟨x, rfl⟩
      · refine ⟨.null :: bound, ?_, .cons nofun hfollows⟩
        rw [List.mapM_cons, hmap]
        rfl
      · have hx : m.Follows escape x (String.ofList (m.pattern escape x.toList)) := by
          unfold Follows
          rw [String.toList_ofList]
          exact m.pattern_literal he x.toList
        refine ⟨.text _ :: bound, ?_, .cons (fun y hy => ⟨_, rfl, by cases hy; exact hx⟩) hfollows⟩
        rw [List.mapM_cons, hmap]
        rfl
  obtain ⟨bound, hmap, hfollows⟩ := hbound
  refine ⟨bound, ?_, hfollows⟩
  rw [resolve, hp, hlike]
  exact hmap

/-! ### Settings -/

namespace Settings

/-- Settings that were checked, read from a document, or given to a session. -/
inductive Accepted (s : Settings) : Prop
  | checked (h : s.validate = .ok s)
  | document {text : String} (h : ofJson text = .ok s)
  | session {name : String} {session : Session} (h : Session.create name s = .ok session)

theorem eq_of_validate {s valid : Settings} (h : s.validate = .ok valid) : valid = s := by
  unfold validate at h
  by_cases hescape : (s.escape == '\'' || Text.isBlank s.escape) = true
  · rw [if_pos hescape] at h
    cases h
  · rw [if_neg hescape] at h
    cases htimeout : s.timeout with
    | some seconds =>
      rw [htimeout] at h
      obtain ⟨_, -, h⟩ := bind_eq_ok.1 h
      exact (Except.ok.inj h).symm
    | none =>
      rw [htimeout] at h
      exact (Except.ok.inj h).symm

/-- However settings are accepted, they were checked. -/
theorem Accepted.validate {s : Settings} (h : s.Accepted) : s.validate = .ok s := by
  cases h with
  | checked h => exact h
  | document h =>
    unfold ofJson at h
    split at h
    · have hs := eq_of_validate h
      subst hs
      exact h
    · cases h
  | session h =>
    unfold Session.create at h
    cases hvalid : s.validate with
    | error e =>
      rw [hvalid] at h
      cases h
    | ok valid => rw [eq_of_validate hvalid]

theorem Accepted.escape_ne_quote {s : Settings} (h : s.Accepted) : s.escape ≠ '\'' := by
  intro hquote
  have hvalid := h.validate
  unfold Settings.validate at hvalid
  rw [hquote] at hvalid
  cases hvalid

/-- Under settings that are accepted and do not escape with a percent sign, each marker of a template that is matched
by LIKE is followed in the SQL by the escape character in a literal of its own, which ends there unless a quote
stands right behind the marker. All texts that are bound for the marker become patterns which, with this escape
character, match exactly the texts that the marker lets through. -/
theorem patterns_followed {s : Settings} (hs : s.Accepted) (hpercent : s.escape ≠ '%') {source : String}
    {t : Template} (ht : s.parse source = .ok t) {m : Marker} {before after : List Piece}
    (hm : t.pieces = before ++ .marker m :: after) (hlike : m.isLike = true) :
    (∀ widths, ∃ front rest,
      (t.expand widths).toList = front ++ '?' :: " ESCAPE ".toList ++ ['\'', s.escape, '\''] ++ rest ∧
      s.escape ≠ '\'' ∧
      (after.head? ≠ some (.sql '\'') → Template.Literal ['\'', s.escape, '\''] rest)) ∧
    ∀ p values, m.pick p = .ok values → (∀ v ∈ values, v = .null ∨ ∃ x, v = .text x) →
      ∃ bound, m.resolve t.escape p = .ok bound ∧
        List.Forall₂ (fun v w => ∀ x, v = .text x → ∃ y, w = .text y ∧ m.Follows s.escape x y) values bound := by
  have hescape : t.escape = s.escape := by
    unfold Settings.parse Template.parse at ht
    split at ht
    · obtain rfl := Except.ok.inj ht
      rfl
    · cases ht
  have hquote := hs.escape_ne_quote
  refine ⟨fun widths => ?_, fun p values hp hvalues => ?_⟩
  · obtain ⟨front, rest, hsql, hrest⟩ := Template.expand_clause hm hlike widths
    rw [hescape] at hsql
    exact ⟨front, rest, hsql, hquote, fun hafter => Template.literal_singleton hquote (hrest hafter)⟩
  · rw [hescape]
    exact Marker.resolve_texts hpercent hlike hp hvalues

def underscored : Settings :=
  { default with escape := '_' }

/-- A list of texts, one of them with wildcards, for a marker that is open on both sides. -/
theorem patterns_followed_in_list : underscored.Accepted ∧ underscored.escape ≠ '%' ∧
    ∃ t m before after bound, underscored.parse "v LIKE :%vs%[] AND 'a'" = .ok t ∧
      t.pieces = before ++ .marker m :: after ∧ m.isLike = true ∧
      m.pick (.sequence [.text "50%", .null]) = .ok [.text "50%", .null] ∧
      m.resolve t.escape (.sequence [.text "50%", .null]) = .ok bound ∧
      List.Forall₂ (fun v w => ∀ x, v = .text x → ∃ y, w = .text y ∧ m.Follows '_' x y)
        ([.text "50%", .null] : List Value) bound := by
  have haccepted : underscored.Accepted := .checked rfl
  have hpercent : underscored.escape ≠ '%' := by decide
  obtain ⟨t, m, before, after, ht, hm, hlike, hpick⟩ : ∃ t m before after,
      underscored.parse "v LIKE :%vs%[] AND 'a'" = .ok t ∧ t.pieces = before ++ .marker m :: after ∧
        m.isLike = true ∧ m.pick (.sequence [.text "50%", .null]) = .ok [.text "50%", .null] :=
    ⟨⟨"v LIKE :%vs%[] AND 'a'", '_', "v LIKE ".toList.map .sql ++
        .marker ⟨"vs", true, true, some .all⟩ :: " AND 'a'".toList.map .sql⟩, _, _, _, by cbv, rfl, rfl, rfl⟩
  obtain ⟨bound, hbound, hfollows⟩ := (patterns_followed haccepted hpercent ht hm hlike).2 _ _ hpick
    (by simp)
  exact ⟨haccepted, hpercent, t, m, before, after, bound, ht, hm, hlike, hpick, hbound, hfollows⟩

/-- With the percent sign, which is accepted, the pattern for a text that anything may follow ends in an escape
character: it matches no text, in the store either, although the marker lets some through. -/
theorem percent_dangles : ∃ t m, { default with escape := '%' : Settings }.Accepted ∧
    { default with escape := '%' : Settings }.parse "v LIKE :v%" = .ok t ∧ t.markers = [m] ∧ m.isLike = true ∧
    m.Admits "a".toList "ab".toList ∧ m.resolve t.escape (.value (.text "a")) = .ok [.text "a%"] ∧
    Like.Dangling '%' "a%".toList ∧ ¬ Like.Matches '%' "a%".toList "ab".toList ∧
    KeyTable.matchesLike (some '%') (.text "a%") (.text "ab") = false :=
  ⟨⟨"v LIKE :v%", '%', "v LIKE ".toList.map .sql ++ [.marker ⟨"v", false, true, none⟩]⟩, ⟨"v", false, true, none⟩,
    .checked rfl, by cbv, rfl, rfl, by decide, rfl, by decide, by decide, by decide +kernel⟩

end Settings

end NamedSql
