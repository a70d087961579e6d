import NamedSql.Proofs.Digits
import NamedSql.Proofs.Resources
import NamedSql.Proofs.Squeezing

/-!
# Listings of statements

A list of named statements is written as a resource with a header, a line of text and a blank line for each of them.
A catalog takes the resource in and finds in it just these statements, with the texts as they were written
(`listing_taken_in`). Texts may hold whatever a line can hold that is squeezed already: number signs, dashes within
literals, literals without an end.
-/

namespace NamedSql

open Text

namespace Catalog

/-! ### Writing statements -/

/-- The lines of a named statement in a resource. -/
def entry (p : String × String) : List (List Char) :=
  ['#' :: p.1.toList, p.2.toList, []]

/-- The resource of named statements. -/
def listing (pairs : List (String × String)) : String :=
  String.join (pairs.map fun p => "#" ++ p.1 ++ "\n" ++ p.2 ++ "\n\n")

/-- A name and a text that can stand in a resource of templates with this escape character. -/
structure Writable (escape : Char) (name text : String) : Prop where
  name_ne : name ≠ ""
  name_chars : ∀ c ∈ name.toList, isNameChar c = true
  text_ne : text ≠ ""
  no_return : '\r' ∉ text.toList
  no_newline : '\n' ∉ text.toList
  squeezed : squeeze text.toList = text.toList
  dashes_quoted : ∀ front back, text.toList = front ++ '-' :: '-' :: back → quotedAfter false front = true
  valid : ∃ t, Template.parse escape text = .ok t

theorem toList_listing (pairs : List (String × String)) :
    (listing pairs).toList = (pairs.flatMap entry).flatMap (· ++ ['\n']) := by
  simp [listing, entry, String.toList_join, List.flatMap_map, List.flatMap_assoc]

/-! ### Lines -/

theorem dropReturn_eq_self {l : List Char} (h : '\r' ∉ l) : dropReturn l = l := by
  unfold dropReturn
  split
  · next r hr => exact absurd (List.mem_reverse.1 (hr ▸ List.mem_cons_self)) h
  · rfl

theorem cutLines_line {l : List Char} (hl : '\n' ∉ l) (acc s : List Char) :
    cutLines acc (l ++ '\n' :: s) = dropReturn (acc.reverse ++ l) :: lines s := by
  induction l generalizing acc with
  | nil => rw [List.nil_append, cutLines, List.append_nil]; rfl
  | cons c l ih =>
    obtain ⟨hc, hl⟩ := not_or.1 (mt List.mem_cons.2 hl)
    rw [List.cons_append, cutLines, ih hl]
    · simp
    · exact fun h => hc h.symm

/-- Lines that are ended are the lines of the text. -/
theorem lines_flatMap {ls : List (List Char)} (hls : ∀ l ∈ ls, '\r' ∉ l ∧ '\n' ∉ l) :
    lines (ls.flatMap (· ++ ['\n'])) = ls := by
  induction ls with
  | nil => rfl
  | cons l ls ih =>
    obtain ⟨⟨hreturn, hnewline⟩, hls⟩ := List.forall_mem_cons.1 hls
    rw [List.flatMap_cons, List.append_assoc, List.singleton_append, lines, cutLines_line hnewline, ih hls,
      List.reverse_nil, List.nil_append, dropReturn_eq_self hreturn]

/-! ### Statements -/

theorem isBlank_of_isNameChar {c : Char} (h : isNameChar c = true) : isBlank c = false := by
  simp only [isNameChar, Bool.or_eq_true, beq_iff_eq] at h
  rcases h with ((halnum | rfl) | rfl) | rfl
  · exact isBlank_of_nameChar (Template.isNameChar_iff.1 (by simp [Template.isNameChar, halnum]))
  · rfl
  · rfl
  · rfl

/-- What is squeezed does not start with white space. -/
theorem head?_squeeze (s : List Char) : ∀ c ∈ (squeeze s).head?, isBlank c = false := by
  induction s with
  | nil => nofun
  | cons c s ih =>
    by_cases hc : isBlank c = true
    · rw [squeeze, squeezeFrom_blank hc]
      exact ih
    · rw [squeeze, squeezeFrom_cons (.inr (Bool.eq_false_iff.2 hc))]
      rintro _ ⟨⟩
      exact Bool.eq_false_iff.2 hc

theorem header?_name {name : List Char} (hne : name ≠ []) (hchars : ∀ c ∈ name, isNameChar c = true) :
    header? ('#' :: name) = some name := by
  have hblank : ∀ c ∈ name, isBlank c = false := fun c hc => isBlank_of_isNameChar (hchars c hc)
  have hhead : ∀ c ∈ name.head?, isBlank c = false := fun c hc => hblank c (List.mem_of_mem_head? hc)
  have htrim : trim ('#' :: name) = '#' :: name := by
    refine trim_eq_self (by rintro _ ⟨⟩; rfl) fun c hc => ?_
    rw [List.getLast?_cons_of_ne_nil hne] at hc
    exact hblank c (List.mem_of_getLast? hc)
  have hall : name.all isNameChar = true := List.all_eq_true.2 hchars
  have hempty : name.isEmpty = false := List.isEmpty_eq_false_iff.2 hne
  simp only [header?, htrim, trimStart_eq_self hhead, hempty, hall]
  rfl

namespace Writable
variable {escape : Char} {name text : String}

theorem toList_name_ne (h : Writable escape name text) : name.toList ≠ [] :=
  fun hname => h.name_ne (String.toList_eq_nil_iff.1 hname)

theorem toList_text_ne (h : Writable escape name text) : text.toList ≠ [] :=
  fun htext => h.text_ne (String.toList_eq_nil_iff.1 htext)

theorem header? (h : Writable escape name text) : Catalog.header? ('#' :: name.toList) = some name.toList :=
  header?_name h.toList_name_ne h.name_chars

theorem head?_text (h : Writable escape name text) : ∀ c ∈ text.toList.head?, isBlank c = false := by
  have hhead := head?_squeeze text.toList
  rwa [h.squeezed] at hhead

theorem not_blank (h : Writable escape name text) : isBlankLine text.toList = false := by
  obtain ⟨c, rest, htext⟩ := List.exists_cons_of_ne_nil h.toList_text_ne
  exact not_blank_of_dash (c := c) (by simp [htext]) (h.head?_text c (by rw [htext]; rfl))

/-- A text that began with two dashes would have them outside literals. -/
theorem not_isComment (h : Writable escape name text) : isComment text.toList = false := by
  rw [isComment, trimStart_eq_self h.head?_text, Bool.eq_false_iff]
  intro hprefix
  obtain ⟨back, hback⟩ := List.isPrefixOf_iff_prefix.1 hprefix
  cases h.dashes_quoted [] back hback.symm

theorem statementText (h : Writable escape name text) : Catalog.statementText [text.toList] = text.toList := by
  have hcut : cutComment false text.toList = text.toList := cutComment_eq_self_iff.2 h.dashes_quoted
  rw [Catalog.statementText, List.map_singleton, hcut, List.intercalate_singleton, h.squeezed]

theorem readBlock (h : Writable escape name text) (resource : String) (line : Nat) :
    Catalog.readBlock resource ⟨line, ['#' :: name.toList, text.toList]⟩ = .ok (name, text.toList) := by
  have hempty : text.toList.isEmpty = false := List.isEmpty_eq_false_iff.2 h.toList_text_ne
  simp only [Catalog.readBlock, h.header?, h.statementText, hempty, String.ofList_toList]
  rfl

/-- The lines of a statement are a block. -/
theorem cutBlocks (h : Writable escape name text) (n : Nat) (rest : List (List Char)) :
    Catalog.cutBlocks n none (entry (name, text) ++ rest) =
      ⟨n, ['#' :: name.toList, text.toList]⟩ :: Catalog.cutBlocks (n + 3) none rest := by
  have hheader := h.header?
  show Catalog.cutBlocks n none (('#' :: name.toList) :: text.toList :: [] :: rest) = _
  rw [cutBlocks_line (not_blank_of_header? hheader) (not_isComment_of_header? hheader),
    cutBlocks_line h.not_blank h.not_isComment, Catalog.cutBlocks]
  rfl

theorem lines (h : Writable escape name text) : ∀ l ∈ entry (name, text), '\r' ∉ l ∧ '\n' ∉ l := by
  have hname : ∀ c, isNameChar c = false → c ≠ '#' → c ∉ '#' :: name.toList := by
    intro c hc hne hmem
    rcases List.mem_cons.1 hmem with rfl | hmem
    · exact hne rfl
    · rw [h.name_chars c hmem] at hc
      cases hc
  simp only [entry, List.forall_mem_cons, List.not_mem_nil, not_false_eq_true, and_self, IsEmpty.forall_iff,
    implies_true, and_true]
  exact ⟨⟨hname '\r' rfl (by decide), hname '\n' rfl (by decide)⟩, h.no_return, h.no_newline⟩

end Writable

/-! ### Reading what was written -/

section
variable {escape : Char} {resource : String} {pairs : List (String × String)}

theorem mapM_readBlock (hpairs : ∀ p ∈ pairs, Writable escape p.1 p.2) (n : Nat) :
    (cutBlocks n none (pairs.flatMap entry)).mapM (readBlock resource) =
      .ok (pairs.map fun p => (p.1, p.2.toList)) := by
  induction pairs generalizing n with
  | nil => rfl
  | cons p pairs ih =>
    obtain ⟨hp, hpairs⟩ := List.forall_mem_cons.1 hpairs
    rw [List.flatMap_cons, hp.cutBlocks, List.mapM_cons, hp.readBlock, ih hpairs]
    rfl

theorem mapM_blocks_listing (hpairs : ∀ p ∈ pairs, Writable escape p.1 p.2) :
    (blocks (listing pairs).toList).mapM (readBlock resource) = .ok (pairs.map fun p => (p.1, p.2.toList)) := by
  have hlines : ∀ l ∈ pairs.flatMap entry, '\r' ∉ l ∧ '\n' ∉ l := by
    intro l hl
    obtain ⟨p, hp, hl⟩ := List.mem_flatMap.1 hl
    exact (hpairs p hp).lines l hl
  rw [blocks, toList_listing, lines_flatMap hlines]
  exact mapM_readBlock hpairs 1

/-- Texts that can be parsed are all taken in, under names that are new and differ from each other. -/
theorem exists_readStatements {texts : List (String × List Char)} {found : Resource}
    (hnames : (found.map Prod.fst ++ texts.map Prod.fst).Nodup)
    (hvalid : ∀ p ∈ texts, ∃ t, Template.parse escape (String.ofList p.2) = .ok t) :
    ∃ statements, readStatements escape resource found texts = .ok statements ∧
      statements.map Prod.fst = found.map Prod.fst ++ texts.map Prod.fst := by
  induction texts generalizing found with
  | nil => exact ⟨found, rfl, by simp⟩
  | cons p texts ih =>
    obtain ⟨name, text⟩ := p
    obtain ⟨⟨t, ht⟩, hvalid⟩ := List.forall_mem_cons.1 hvalid
    have hnew : (found.any (·.1 == name)) = false := by
      refine List.any_eq_false.2 fun s hs heq => ?_
      have hdisjoint := List.disjoint_of_nodup_append hnames
      exact hdisjoint (List.mem_map_of_mem hs) (by rw [beq_iff_eq.1 heq]; exact List.mem_cons_self)
    have hsnoc : (found ++ [(name, t)]).map Prod.fst ++ texts.map Prod.fst =
        found.map Prod.fst ++ ((name, text) :: texts).map Prod.fst := by
      simp
    obtain ⟨statements, hread, hfst⟩ := ih (hsnoc ▸ hnames) hvalid
    refine ⟨statements, ?_, by rw [hfst, hsnoc]⟩
    simp only [readStatements, hnew, Bool.false_eq_true, if_false, ht]
    exact hread

end

/-- A resource that is taken in is looked through for its statements. -/
theorem load_of_readResource {c : Catalog} {resource text : String} {statements : Resource}
    (h : readResource c.escape resource text = .ok statements) :
    ∃ c', c.load resource text = .ok (statements.length, c') ∧
      (∀ name t, statements.lookup name = some t → c'.template resource name = .ok t) ∧
      ∀ name, statements.lookup name = none →
        c'.template resource name = .error (.catalog (.unknownStatement name resource)) :=
  ⟨_, by rw [load, h]; rfl, fun _ _ hname => by simp [template, hname], fun _ hname => by simp [template, hname]⟩

/-- A resource that is written from statements with different names is taken in as a whole. Each statement is found
with its text as it was written and with the template of this text, and no other statement is found. -/
theorem listing_taken_in {c : Catalog} (resource : String) {pairs : List (String × String)}
    (hnames : (pairs.map Prod.fst).Nodup) (hpairs : ∀ p ∈ pairs, Writable c.escape p.1 p.2) :
    ∃ c', c.load resource (listing pairs) = .ok (pairs.length, c') ∧
      (∀ p ∈ pairs, c'.statementSql resource p.1 = .ok p.2 ∧
        ∃ t, Template.parse c.escape p.2 = .ok t ∧ c'.template resource p.1 = .ok t) ∧
      ∀ name, name ∉ pairs.map Prod.fst →
        c'.template resource name = .error (.catalog (.unknownStatement name resource)) ∧
        c'.statementSql resource name = .error (.catalog (.unknownStatement name resource)) := by
  have hfst : (pairs.map fun p => (p.1, p.2.toList)).map Prod.fst = pairs.map Prod.fst := List.map_map
  obtain ⟨statements, hread, hkeys⟩ : ∃ statements,
      readStatements c.escape resource [] (pairs.map fun p => (p.1, p.2.toList)) = .ok statements ∧
        statements.map Prod.fst = pairs.map Prod.fst := by
    rw [← hfst]
    refine exists_readStatements (by rwa [List.map_nil, List.nil_append, hfst]) ?_
    refine List.forall_mem_map.2 fun p hp => ?_
    rw [String.ofList_toList]
    exact (hpairs p hp).valid
  have hlength : statements.length = pairs.length := by
    have := congrArg List.length hkeys
    rwa [List.length_map, List.length_map] at this
  have hresource : readResource c.escape resource (listing pairs) = .ok statements := by
    simp only [readResource, mapM_blocks_listing hpairs, hread]
  obtain ⟨c', hload, hfound, hunknown⟩ := load_of_readResource hresource
  refine ⟨c', by rw [hload, hlength], fun p hp => ?_, fun name hname => ?_⟩
  · obtain ⟨t, ht, hlookup⟩ := exists_of_readStatements hread (List.mem_map_of_mem hp)
    rw [String.ofList_toList] at ht
    have htemplate := hfound p.1 t hlookup
    obtain ⟨_, _, _, -, -, rfl⟩ := Template.parse_eq_ok_iff.1 ht
    exact ⟨by rw [statementSql, htemplate]; rfl, _, ht, htemplate⟩
  · have hlookup : statements.lookup name = none := by
      rw [List.lookup_eq_none_iff]
      intro s hs
      rw [bne_iff_ne]
      rintro rfl
      exact hname (hkeys ▸ List.mem_map_of_mem hs)
    have htemplate := hunknown name hlookup
    exact ⟨htemplate, by rw [statementSql, htemplate]; rfl⟩

/-- A text with a number sign and dashes in literals, and one with a literal that has no end. -/
def numberedPairs : List (String × String) :=
  [("a.b-1", "SELECT '--' || '#x' - k FROM t WHERE k = :k"), ("_", "#q 'it''s -- :x  ")]

theorem listing_taken_in_of_numbered : (numberedPairs.map Prod.fst).Nodup ∧
    (∀ p ∈ numberedPairs, Writable '!' p.1 p.2) ∧
    ∃ c', (Catalog.empty '!').load "r" (listing numberedPairs) = .ok (2, c') ∧
      c'.statementSql "r" "a.b-1" = .ok "SELECT '--' || '#x' - k FROM t WHERE k = :k" ∧
      c'.statementSql "r" "_" = .ok "#q 'it''s -- :x  " ∧
      c'.template "r" "q" = .error (.catalog (.unknownStatement "q" "r")) := by
  have hnames : (numberedPairs.map Prod.fst).Nodup := by decide
  have hpairs : ∀ p ∈ numberedPairs, Writable '!' p.1 p.2 := by
    refine List.forall_mem_cons.2 ⟨?_, List.forall_mem_singleton.2 ?_⟩
    · exact ⟨by decide, List.all_eq_true.1 (by decide), by decide, by decide, by decide, by cbv,
        cutComment_eq_self_iff.1 (by cbv), _, by cbv⟩
    · exact ⟨by decide, List.all_eq_true.1 (by decide), by decide, by decide, by decide, by cbv,
        cutComment_eq_self_iff.1 (by cbv), _, by cbv⟩
  obtain ⟨c', hload, hfound, hunknown⟩ := listing_taken_in "r" (c := Catalog.empty '!') hnames hpairs
  have hfirst := hfound _ (List.mem_cons_self (a := ("a.b-1", "SELECT '--' || '#x' - k FROM t WHERE k = :k")))
  have hsecond := hfound ("_", "#q 'it''s -- :x  ") (by decide)
  exact ⟨hnames, hpairs, c', hload, hfirst.1, hsecond.1, (hunknown "q" (by decide)).1⟩

end Catalog

end NamedSql
