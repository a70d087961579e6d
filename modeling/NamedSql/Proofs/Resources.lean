import NamedSql.Catalog
import NamedSql.Proofs.Flow
import NamedSql.Proofs.Wording

/-!
# What a catalog keeps of a resource

The statement below a header is read as a whole: a comment starts at two dashes outside literals, where a literal may
go on over several lines (`uncomment`). What is kept are the words that are left, with one space between them, if each
line with two dashes begins outside literals (`Catalog.statement_kept`). The lines are searched for comments one by one,
so within a literal that goes on over several lines two dashes are taken for a comment (`Catalog.literal_cut`).
-/

namespace NamedSql

open Text

namespace Catalog

/-! ### Comments -/

/-- A text without its comments, each from two dashes outside literals to the end of its line. A literal is open in
front of the text if `quoted`. -/
def uncomment (quoted : Bool) : List Char → List Char
  | [] => []
  | '-' :: '-' :: s =>
    if quoted then '-' :: uncomment quoted ('-' :: s) else uncomment quoted (s.dropWhile (· != '\n'))
  | c :: s => c :: uncomment (if c = '\'' then !quoted else quoted) s
termination_by s => s.length
decreasing_by
  all_goals simp only [List.length_cons]
  all_goals try omega
  have := Template.length_dropWhile_le (· != '\n') s
  omega

@[simp] theorem uncomment_nil (quoted : Bool) : uncomment quoted [] = [] := by
  rw [uncomment]

/-- Lines with their ends in front. -/
def ended (ls : List (List Char)) : List Char :=
  ls.flatMap ('\n' :: ·)

@[simp] theorem ended_nil : ended [] = [] := rfl

theorem ended_cons (l : List Char) (ls : List (List Char)) : ended (l :: ls) = '\n' :: (l ++ ended ls) :=
  List.flatMap_cons

/-- A text at which a line is over. -/
theorem ended_cases (ls : List (List Char)) : ended ls = [] ∨ ∃ s, ended ls = '\n' :: s := by
  cases ls with
  | nil => exact .inl rfl
  | cons l ls => exact .inr ⟨_, ended_cons l ls⟩

theorem uncomment_newline (quoted : Bool) (s : List Char) : uncomment quoted ('\n' :: s) = '\n' :: uncomment quoted s := by
  rw [uncomment]
  · rfl
  · simp

theorem dropWhile_line {l s : List Char} (hl : '\n' ∉ l) (hs : s = [] ∨ ∃ r, s = '\n' :: r) :
    (l ++ s).dropWhile (· != '\n') = s := by
  refine Template.dropWhile_run (fun c hc => ?_) (fun c hc => ?_)
  · simp only [bne_iff_ne, ne_eq]
    rintro rfl
    exact hl hc
  · rcases hs with rfl | ⟨r, rfl⟩
    · cases hc
    · obtain rfl := Option.some.inj hc
      rfl

/-- The comment of a line ends with the line. -/
theorem uncomment_line {l s : List Char} (hl : '\n' ∉ l) (hs : s = [] ∨ ∃ r, s = '\n' :: r) (quoted : Bool) :
    uncomment quoted (l ++ s) =
      cutComment quoted l ++ uncomment (quotedAfter quoted (cutComment quoted l)) s := by
  fun_induction cutComment quoted l with
  | case1 => rfl
  | case2 l ih =>
    rw [List.cons_append, List.cons_append, uncomment, if_pos rfl, ← List.cons_append,
      ih fun h => hl (List.mem_cons_of_mem _ h)]
    rfl
  | case3 quoted l hq =>
    rw [List.cons_append, List.cons_append, uncomment, if_neg hq,
      dropWhile_line (fun h => hl (List.mem_cons_of_mem _ (List.mem_cons_of_mem _ h))) hs]
    rfl
  | case4 quoted c l hc ih =>
    have hdash : ∀ r, c = '-' → l ++ s = '-' :: r → False := by
      intro r hcdash hr
      rcases l with _ | ⟨d, l⟩
      · rcases hs with rfl | ⟨_, rfl⟩ <;> cases hr
      · exact hc l hcdash (by rw [(List.cons.inj hr).1])
    have hline := ih fun h => hl (List.mem_cons_of_mem _ h)
    simp only [beq_iff_eq] at hline ⊢
    rw [List.cons_append, uncomment, hline]
    · rfl
    · exact hdash

/-- A line has no comment exactly if two dashes stand in it within literals only. -/
theorem cutComment_eq_self_iff {l : List Char} {quoted : Bool} :
    cutComment quoted l = l ↔ ∀ front back, l = front ++ '-' :: '-' :: back → quotedAfter quoted front = true := by
  fun_induction cutComment quoted l with
  | case1 => simp
  | case2 l ih =>
    rw [List.cons_inj_right, ih]
    constructor
    · rintro h (_ | ⟨c, front⟩) back hl
      · rfl
      · obtain ⟨rfl, hrest⟩ := List.cons.inj hl
        exact h front back hrest
    · intro h front back hl
      exact h ('-' :: front) back (by rw [hl]; rfl)
  | case3 quoted l hq =>
    have hdash : ¬ ∀ front back, '-' :: '-' :: l = front ++ '-' :: '-' :: back → quotedAfter quoted front = true :=
      fun h => hq (h [] l rfl)
    simp [hdash]
  | case4 quoted c l hc ih =>
    rw [List.cons_inj_right, ih]
    simp only [beq_iff_eq]
    constructor
    · rintro h (_ | ⟨d, front⟩) back hl
      · exact absurd (List.cons.inj hl).2 (hc back (List.cons.inj hl).1)
      · obtain ⟨rfl, hrest⟩ := List.cons.inj hl
        exact h front back hrest
    · intro h front back hl
      exact h (c :: front) back (by rw [hl]; rfl)

theorem cutComment_eq_self {l : List Char} (h : ¬ ['-', '-'] <:+: l) (quoted : Bool) : cutComment quoted l = l :=
  cutComment_eq_self_iff.2 fun front back hl => absurd ⟨front, back, by simp [hl]⟩ h

/-- A line that is nothing but a comment begins with two dashes behind white space. -/
theorem exists_of_isComment {l : List Char} (h : isComment l = true) :
    ∃ blanks r, l = blanks ++ '-' :: '-' :: r ∧ ∀ c ∈ blanks, isBlank c = true := by
  obtain ⟨r, hr⟩ := List.isPrefixOf_iff_prefix.1 h
  refine ⟨l.takeWhile isBlank, r, ?_, fun c hc => List.mem_takeWhile_imp hc⟩
  have hl : l.takeWhile isBlank ++ trimStart l = l := List.takeWhile_append_dropWhile
  rw [← hr] at hl
  exact hl.symm

theorem isBlank_ne {c : Char} (h : isBlank c = true) : c ≠ '\'' ∧ c ≠ '-' := by
  constructor <;> rintro rfl <;> cases h

theorem cutComment_blanks {blanks : List Char} (h : ∀ c ∈ blanks, isBlank c = true) (r : List Char) :
    cutComment false (blanks ++ '-' :: '-' :: r) = blanks := by
  induction blanks with
  | nil => rfl
  | cons c blanks ih =>
    obtain ⟨hc, hblanks⟩ := List.forall_mem_cons.1 h
    obtain ⟨hquote, hdash⟩ := isBlank_ne hc
    rw [List.cons_append, cutComment, if_neg (by simpa using hquote), ih hblanks]
    exact fun _ h _ => hdash h

/-! ### Lines and the whole -/

/-- Every line with two dashes begins outside literals. -/
def DashesOutside (body : List (List Char)) : Prop :=
  ∀ front line back, body = front ++ line :: back → ['-', '-'] <:+: line →
    quotedAfter false (uncomment false (List.intercalate ['\n'] front)) = false

theorem squeezeFrom_congr {a s s' : List Char} {quoted : Bool}
    (h : ∀ pending started, squeezeFrom (quotedAfter quoted a) pending started s =
      squeezeFrom (quotedAfter quoted a) pending started s') (pending started : Bool) :
    squeezeFrom quoted pending started (a ++ s) = squeezeFrom quoted pending started (a ++ s') := by
  induction a generalizing quoted pending started with
  | nil => exact h pending started
  | cons c a ih =>
    by_cases hc : quoted = true ∨ isBlank c = false
    · rw [List.cons_append, List.cons_append, squeezeFrom_cons hc, squeezeFrom_cons hc, ih h]
    · simp only [not_or, Bool.not_eq_true, Bool.not_eq_false] at hc
      obtain ⟨rfl, hc⟩ := hc
      rw [quotedAfter_cons, if_neg (isBlank_ne hc).1] at h
      rw [List.cons_append, List.cons_append, squeezeFrom_blank hc, squeezeFrom_blank hc, ih h]

theorem squeezeFrom_blanks {blanks : List Char} (h : ∀ c ∈ blanks, isBlank c = true) (started : Bool) (s : List Char) :
    squeezeFrom false started started (blanks ++ s) = squeezeFrom false started started s := by
  induction blanks with
  | nil => rfl
  | cons c blanks ih =>
    obtain ⟨hc, hblanks⟩ := List.forall_mem_cons.1 h
    rw [List.cons_append, squeezeFrom_blank hc, ih hblanks]

/-- The white space at the end of a line is written like the white space in front of it. -/
theorem squeezeFrom_ended (pending started : Bool) (ls : List (List Char)) :
    squeezeFrom false pending started (ended ls) = squeezeFrom false started started (ended ls) := by
  cases ls with
  | nil => rfl
  | cons l ls => rw [ended_cons, squeezeFrom_blank rfl, squeezeFrom_blank rfl]

/-- The invariant of the walk over the lines: in front of each of them, the comments are cut from the whole and from
the lines alike, and what is left is squeezed to the same. -/
theorem squeezeFrom_lines {body : List (List Char)} (hlines : ∀ l ∈ body, '\n' ∉ l) {quoted : Bool}
    (hdashes : ∀ front line back, body = front ++ line :: back → ['-', '-'] <:+: line →
      quotedAfter quoted (uncomment quoted (ended front)) = false) (pending started : Bool) :
    squeezeFrom quoted pending started (ended ((body.filter (!isComment ·)).map (cutComment false))) =
      squeezeFrom quoted pending started (uncomment quoted (ended body)) := by
  induction body generalizing quoted pending started with
  | nil => simp
  | cons l body ih =>
    obtain ⟨hl, hlines⟩ := List.forall_mem_cons.1 hlines
    have hbegin : ['-', '-'] <:+: l → quoted = false := fun hdash => by
      have hquoted := hdashes [] l body rfl hdash
      rwa [ended_nil, uncomment_nil] at hquoted
    have hcut : cutComment quoted l = cutComment false l := by
      by_cases hdash : ['-', '-'] <:+: l
      · rw [hbegin hdash]
      · rw [cutComment_eq_self hdash, cutComment_eq_self hdash]
    have hfirst : ∀ ls, uncomment quoted (ended (l :: ls)) =
        '\n' :: (cutComment false l ++ uncomment (quotedAfter quoted (cutComment false l)) (ended ls)) := by
      intro ls
      rw [ended_cons, uncomment_newline, uncomment_line hl (ended_cases ls), hcut]
    have hbehind : ∀ front line back, body = front ++ line :: back → ['-', '-'] <:+: line →
        quotedAfter (quotedAfter quoted (cutComment false l))
          (uncomment (quotedAfter quoted (cutComment false l)) (ended front)) = false := by
      intro front line back hbody hdash
      have hfront := hdashes (l :: front) line back (by rw [hbody]; rfl) hdash
      rwa [hfirst, quotedAfter_cons, if_neg (by decide), quotedAfter_append] at hfront
    have hrest := ih hlines hbehind
    rw [hfirst]
    by_cases hcomment : isComment l = true
    · -- nothing of the line is left but white space
      obtain ⟨blanks, r, rfl, hblanks⟩ := exists_of_isComment hcomment
      obtain rfl := hbegin ⟨blanks, r, by simp⟩
      rw [cutComment_blanks hblanks, quotedAfter_plain fun h => (isBlank_ne (hblanks _ h)).1 rfl] at hrest
      rw [List.filter_cons_of_neg (by simpa using hcomment), cutComment_blanks hblanks,
        quotedAfter_plain fun h => (isBlank_ne (hblanks _ h)).1 rfl, squeezeFrom_blank rfl, squeezeFrom_blanks hblanks,
        squeezeFrom_ended, hrest]
    · rw [List.filter_cons_of_pos (by simpa using hcomment), List.map_cons, ended_cons, ← List.cons_append,
        ← List.cons_append]
      refine squeezeFrom_congr ?_ pending started
      rwa [quotedAfter_cons, if_neg (by decide)]

theorem squeeze_intercalate (ls : List (List Char)) : squeeze (List.intercalate ['\n'] ls) = squeeze (ended ls) := by
  cases ls with
  | nil => rfl
  | cons l ls => rw [intercalate_cons, ended_cons, squeeze, squeeze, squeezeFrom_blank rfl]; rfl

theorem uncomment_ended (ls : List (List Char)) :
    squeeze (uncomment false (ended ls)) = squeeze (uncomment false (List.intercalate ['\n'] ls)) ∧
      quotedAfter false (uncomment false (ended ls)) =
        quotedAfter false (uncomment false (List.intercalate ['\n'] ls)) := by
  cases ls with
  | nil => exact ⟨rfl, rfl⟩
  | cons l ls =>
    rw [intercalate_cons, ended_cons, uncomment_newline, squeeze, squeeze, squeezeFrom_blank rfl]
    exact ⟨rfl, rfl⟩

/-- The statement of lines without the comments between them is the statement of the whole. -/
theorem statementText_eq {body : List (List Char)} (hlines : ∀ l ∈ body, '\n' ∉ l) (hdashes : DashesOutside body) :
    statementText (body.filter (!isComment ·)) = squeeze (uncomment false (List.intercalate ['\n'] body)) := by
  rw [statementText, squeeze_intercalate, ← (uncomment_ended body).1]
  refine squeezeFrom_lines hlines (fun front line back hbody hdash => ?_) false false
  rw [(uncomment_ended front).2]
  exact hdashes front line back hbody hdash

/-! ### Blocks -/

/-- The lines `body` stand in a text below a header with the name `name`. The block reaches from one blank line, or end
of the text, to the next one; comments may stand in front of the header. -/
def HasBlock (text name : String) (body : List (List Char)) : Prop :=
  ∃ before notes header after, lines text.toList = before ++ notes ++ header :: body ++ after ∧
    (∀ l ∈ before.getLast?, isBlankLine l = true) ∧ (∀ l ∈ notes, isComment l = true) ∧
    header? header = some name.toList ∧ (∀ l ∈ body, isBlankLine l = false) ∧ ∀ l ∈ after.head?, isBlankLine l = true

theorem not_blank_of_dash {l : List Char} {c : Char} (hc : c ∈ l) (hb : isBlank c = false) : isBlankLine l = false := by
  rw [isBlankLine, List.all_eq_false]
  exact ⟨c, hc, by rw [hb]; decide⟩

theorem not_blank_of_isComment {l : List Char} (h : isComment l = true) : isBlankLine l = false := by
  obtain ⟨blanks, r, rfl, -⟩ := exists_of_isComment h
  exact not_blank_of_dash (c := '-') (by simp) rfl

/-- A header begins with a number sign behind white space. -/
theorem trimStart_of_header? {l name : List Char} (h : header? l = some name) : ∃ r, trimStart l = '#' :: r := by
  unfold header? at h
  split at h
  · next s hs =>
    have htrim : trim l <+: trimStart l := by
      have hsuffix := List.dropWhile_suffix isBlank (l := (trimStart l).reverse)
      rw [trim, ← List.reverse_suffix, List.reverse_reverse]
      exact hsuffix
    rw [hs] at htrim
    obtain ⟨r, hr⟩ := htrim
    exact ⟨s ++ r, hr.symm⟩
  · cases h

theorem not_blank_of_header? {l name : List Char} (h : header? l = some name) : isBlankLine l = false := by
  obtain ⟨r, hr⟩ := trimStart_of_header? h
  have hmem : '#' ∈ trimStart l := by simp [hr]
  exact not_blank_of_dash ((List.dropWhile_sublist isBlank).subset hmem) rfl

theorem not_isComment_of_header? {l name : List Char} (h : header? l = some name) : isComment l = false := by
  obtain ⟨r, hr⟩ := trimStart_of_header? h
  rw [isComment, hr]
  rfl

section
variable {l : List Char} {rest : List (List Char)} {n : Nat} {current : Option (Nat × List (List Char))}

theorem cutBlocks_blank (hl : isBlankLine l = true) (n : Nat) (current : Option (Nat × List (List Char))) :
    ∃ found, ∀ rest, cutBlocks n current (l :: rest) = found ++ cutBlocks (n + 1) none rest := by
  cases current with
  | none => exact ⟨[], fun rest => by rw [cutBlocks, if_pos hl]; rfl⟩
  | some current => exact ⟨[⟨current.1, current.2.reverse⟩], fun rest => by rw [cutBlocks, if_pos hl]; rfl⟩

theorem cutBlocks_comment (hl : isComment l = true) :
    cutBlocks n current (l :: rest) = cutBlocks (n + 1) current rest := by
  have hblank := not_blank_of_isComment hl
  cases current <;> rw [cutBlocks, if_neg (by simp [hblank]), if_pos hl]

theorem cutBlocks_line (hblank : isBlankLine l = false) (hcomment : isComment l = false) :
    cutBlocks n current (l :: rest) =
      cutBlocks (n + 1) (some ((current.map Prod.fst).getD n, l :: (current.map Prod.snd).getD [])) rest := by
  cases current <;> rw [cutBlocks, if_neg (by simp [hblank]), if_neg (by simp [hcomment])] <;> rfl

end

/-- Up to a blank line blocks are cut without a look at what follows. -/
theorem cutBlocks_before {before : List (List Char)} (hbefore : ∀ l ∈ before.getLast?, isBlankLine l = true) (n : Nat)
    (current : Option (Nat × List (List Char))) (hcurrent : before = [] → current = none) :
    ∃ found m, ∀ rest, cutBlocks n current (before ++ rest) = found ++ cutBlocks m none rest := by
  induction before generalizing n current with
  | nil =>
    obtain rfl := hcurrent rfl
    exact ⟨[], n, fun rest => rfl⟩
  | cons l before ih =>
    have hlast : ∀ l ∈ before.getLast?, isBlankLine l = true := by
      intro k hk
      refine hbefore k ?_
      rw [List.getLast?_cons, Option.mem_def.1 hk]
      rfl
    by_cases hblank : isBlankLine l = true
    · obtain ⟨block, hblock⟩ := cutBlocks_blank hblank n current
      obtain ⟨found, m, hfound⟩ := ih hlast (n + 1) none fun _ => rfl
      exact ⟨block ++ found, m, fun rest => by rw [List.cons_append, hblock, hfound, List.append_assoc]⟩
    · have hne : before ≠ [] := by
        rintro rfl
        exact hblank (hbefore l rfl)
      by_cases hcomment : isComment l = true
      · obtain ⟨found, m, hfound⟩ := ih hlast (n + 1) _ fun h => absurd h hne
        exact ⟨found, m, fun rest => by rw [List.cons_append, cutBlocks_comment hcomment, hfound]⟩
      · obtain ⟨found, m, hfound⟩ := ih hlast (n + 1) _ fun h => absurd h hne
        refine ⟨found, m, fun rest => ?_⟩
        rw [List.cons_append, cutBlocks_line (Bool.eq_false_iff.2 hblank) (Bool.eq_false_iff.2 hcomment), hfound]

theorem cutBlocks_notes {notes : List (List Char)} (hnotes : ∀ l ∈ notes, isComment l = true) (n : Nat)
    (current : Option (Nat × List (List Char))) (rest : List (List Char)) :
    cutBlocks n current (notes ++ rest) = cutBlocks (n + notes.length) current rest := by
  induction notes generalizing n with
  | nil => rfl
  | cons l notes ih =>
    obtain ⟨hl, hnotes⟩ := List.forall_mem_cons.1 hnotes
    rw [List.cons_append, cutBlocks_comment hl, ih hnotes, List.length_cons, Nat.add_assoc, Nat.add_comm 1]

/-- A block that was begun takes the lines up to a blank one, except comments. -/
theorem cutBlocks_body {body after : List (List Char)} (hbody : ∀ l ∈ body, isBlankLine l = false)
    (hafter : ∀ l ∈ after.head?, isBlankLine l = true) (n line : Nat) (block : List (List Char)) :
    ∃ more, cutBlocks n (some (line, block)) (body ++ after) =
      ⟨line, block.reverse ++ body.filter (!isComment ·)⟩ :: more := by
  induction body generalizing n block with
  | nil =>
    cases after with
    | nil => exact ⟨[], by simp [cutBlocks]⟩
    | cons l after => exact ⟨cutBlocks (n + 1) none after, by simp [cutBlocks, hafter l rfl]⟩
  | cons l body ih =>
    obtain ⟨hl, hbody⟩ := List.forall_mem_cons.1 hbody
    by_cases hcomment : isComment l = true
    · obtain ⟨more, hmore⟩ := ih hbody (n + 1) block
      refine ⟨more, ?_⟩
      rw [List.cons_append, cutBlocks_comment hcomment, hmore, List.filter_cons_of_neg (by simpa using hcomment)]
    · obtain ⟨more, hmore⟩ := ih hbody (n + 1) (l :: block)
      refine ⟨more, ?_⟩
      rw [List.cons_append, cutBlocks_line hl (Bool.eq_false_iff.2 hcomment),
        List.filter_cons_of_pos (by simpa using hcomment)]
      simpa using hmore

theorem HasBlock.mem_blocks {text name : String} {body : List (List Char)} (h : HasBlock text name body) :
    ∃ line header, header? header = some name.toList ∧
      ⟨line, header :: body.filter (!isComment ·)⟩ ∈ blocks text.toList := by
  obtain ⟨before, notes, header, after, hlines, hbefore, hnotes, hheader, hbody, hafter⟩ := h
  obtain ⟨found, m, hfound⟩ := cutBlocks_before hbefore 1 none fun _ => rfl
  obtain ⟨more, hmore⟩ := cutBlocks_body hbody hafter (m + notes.length + 1) (m + notes.length) [header]
  refine ⟨m + notes.length, header, hheader, ?_⟩
  have hbegin : cutBlocks (m + notes.length) none (header :: (body ++ after)) =
      ⟨m + notes.length, header :: body.filter (!isComment ·)⟩ :: more := by
    rw [cutBlocks_line (not_blank_of_header? hheader) (not_isComment_of_header? hheader)]
    exact hmore
  rw [blocks, hlines, List.append_assoc, List.append_assoc, hfound, cutBlocks_notes hnotes, List.cons_append, hbegin]
  simp

/-! ### Loading -/

theorem exists_of_mem_mapM {ε α β : Type} {f : α → Except ε β} {as : List α} {bs : List β} (h : as.mapM f = .ok bs)
    {a : α} (ha : a ∈ as) : ∃ b ∈ bs, f a = .ok b := by
  have hall := mapM_eq_ok.1 h
  clear h
  induction hall with
  | nil => cases ha
  | cons hab _ ih =>
    rcases List.mem_cons.1 ha with rfl | ha
    · exact ⟨_, List.mem_cons_self, hab⟩
    · obtain ⟨b, hb, hf⟩ := ih ha
      exact ⟨b, List.mem_cons_of_mem _ hb, hf⟩

theorem readBlock_eq_ok {resource : String} {line : Nat} {header name : List Char} {body : List (List Char)}
    (hheader : header? header = some name) {statement : String × List Char}
    (h : readBlock resource ⟨line, header :: body⟩ = .ok statement) :
    statement = (String.ofList name, statementText body) := by
  simp only [readBlock, hheader] at h
  split at h
  · cases h
  · exact (Except.ok.inj h).symm

theorem lookup_readStatements {escape : Char} {resource : String} {found statements : Resource}
    {texts : List (String × List Char)} (h : readStatements escape resource found texts = .ok statements)
    {name : String} {t : Template} (ht : found.lookup name = some t) : statements.lookup name = some t := by
  induction texts generalizing found with
  | nil =>
    obtain rfl := Except.ok.inj h
    exact ht
  | cons text texts ih =>
    rw [readStatements] at h
    split at h
    · cases h
    · split at h
      · cases h
      · exact ih h (by rw [List.lookup_append, ht]; rfl)

/-- Every text that is taken in is parsed, and found under its name. -/
theorem exists_of_readStatements {escape : Char} {resource : String} {found statements : Resource}
    {texts : List (String × List Char)} (h : readStatements escape resource found texts = .ok statements)
    {name : String} {text : List Char} (hmem : (name, text) ∈ texts) :
    ∃ t, Template.parse escape (String.ofList text) = .ok t ∧ statements.lookup name = some t := by
  induction texts generalizing found with
  | nil => cases hmem
  | cons first texts ih =>
    rw [readStatements] at h
    split at h
    · cases h
    · next hnew =>
      split at h
      · cases h
      · next t ht =>
        rcases List.mem_cons.1 hmem with rfl | hmem
        · have hfound : found.lookup name = none := by
            rw [List.lookup_eq_none_iff]
            intro s hs
            simp only [Bool.not_eq_true, List.any_eq_false] at hnew
            rw [bne_iff_ne, ne_comm, ← beq_eq_false_iff_ne]
            exact hnew s hs
          refine ⟨t, ht, lookup_readStatements h ?_⟩
          rw [List.lookup_append, hfound]
          simp
        · exact ih h hmem

/-- The statement of a block is parsed without its comment lines, and found under its name. -/
theorem template_of_load {c c' : Catalog} {resource text : String} {n : Nat}
    (hload : c.load resource text = .ok (n, c')) {name : String} {body : List (List Char)}
    (hblock : HasBlock text name body) :
    ∃ t, Template.parse c.escape (String.ofList (statementText (body.filter (!isComment ·)))) = .ok t ∧
      c'.template resource name = .ok t := by
  obtain ⟨line, header, hheader, hmem⟩ := hblock.mem_blocks
  unfold load readResource at hload
  split at hload
  · cases hload
  next texts htexts =>
    obtain ⟨first, hfirst, hread⟩ := exists_of_mem_mapM htexts hmem
    obtain rfl := readBlock_eq_ok hheader hread
    cases hstatements : readStatements c.escape resource [] texts with
    | error e =>
      rw [hstatements] at hload
      cases hload
    | ok statements =>
      rw [hstatements] at hload
      obtain ⟨t, ht, hlookup⟩ := exists_of_readStatements hstatements hfirst
      rw [String.ofList_toList] at hlookup
      obtain ⟨-, rfl⟩ := Prod.mk.inj (Except.ok.inj hload)
      exact ⟨t, ht, by simp [template, hlookup]⟩

theorem newline_not_mem_dropReturn {l : List Char} (h : '\n' ∉ l) : '\n' ∉ dropReturn l := by
  unfold dropReturn
  split
  · next r hr =>
    intro hmem
    refine h (List.mem_reverse.1 ?_)
    rw [hr]
    exact List.mem_cons_of_mem _ (List.mem_reverse.1 hmem)
  · exact h

theorem newline_not_mem_cutLines {acc : List Char} (hacc : '\n' ∉ acc) (s : List Char) :
    ∀ l ∈ cutLines acc s, '\n' ∉ l := by
  fun_induction cutLines acc s with
  | case1 acc h => nofun
  | case2 acc h => simpa using hacc
  | case3 acc s ih =>
    exact List.forall_mem_cons.2 ⟨newline_not_mem_dropReturn (by simpa using hacc), ih List.not_mem_nil⟩
  | case4 acc c s hc ih => exact ih (by simpa [hacc] using fun h => hc h.symm)

theorem HasBlock.newline_not_mem {text name : String} {body : List (List Char)} (h : HasBlock text name body) :
    ∀ l ∈ body, '\n' ∉ l := by
  obtain ⟨before, notes, header, after, hlines, -⟩ := h
  intro l hl
  refine newline_not_mem_cutLines List.not_mem_nil text.toList l ?_
  rw [← Text.lines, hlines]
  simp [hl]

/-- What a catalog keeps of a statement, if each line of it with two dashes begins outside literals: the words that the
body has without its comments, with one space between them, and its literals as they stand. The statement has the
markers of the body without its comments. -/
theorem statement_kept {c c' : Catalog} {resource text : String} {n : Nat} (hload : c.load resource text = .ok (n, c'))
    {name : String} {body : List (List Char)} (hblock : HasBlock text name body) (hdashes : DashesOutside body) :
    ∃ t ws, c'.template resource name = .ok t ∧
      c'.statementSql resource name = .ok (String.ofList (List.intercalate [' '] ws)) ∧
      Words (uncomment false (List.intercalate ['\n'] body)) ws ∧
      ∃ t', Template.parse c.escape (String.ofList (uncomment false (List.intercalate ['\n'] body))) = .ok t' ∧
        t'.markers = t.markers := by
  obtain ⟨t, ht, htemplate⟩ := template_of_load hload hblock
  rw [statementText_eq hblock.newline_not_mem hdashes] at ht
  obtain ⟨ws, hws⟩ := exists_words (uncomment false (List.intercalate ['\n'] body))
  obtain ⟨t', ht', hmarkers⟩ := markers_squeeze ht
  obtain ⟨_, _, _, -, -, rfl⟩ := Template.parse_eq_ok_iff.1 ht
  refine ⟨_, ws, htemplate, ?_, hws, t', ht', hmarkers⟩
  rw [statementSql, htemplate, ← hws.squeeze]
  rfl

/-- Two blocks. The first one has a comment, dashes in a literal and a literal over two lines. -/
def twoBlocks : String :=
  "-- keys\n#one\nSELECT 'a--''b' -- :x\n ,  'c\n  d' FROM t  WHERE k = :k\n\n#two\nSELECT 1"

def firstBody : List (List Char) :=
  ["SELECT 'a--''b' -- :x".toList, " ,  'c".toList, "  d' FROM t  WHERE k = :k".toList]

theorem statement_kept_of_lines :
    ∃ c' t ws, (Catalog.empty '!').load "r" twoBlocks = .ok (2, c') ∧ HasBlock twoBlocks "one" firstBody ∧
      DashesOutside firstBody ∧ c'.template "r" "one" = .ok t ∧
      c'.statementSql "r" "one" = .ok (String.ofList (List.intercalate [' '] ws)) ∧
      Words (uncomment false (List.intercalate ['\n'] firstBody)) ws := by
  have hload : ∃ c', (Catalog.empty '!').load "r" twoBlocks = .ok (2, c') := ⟨_, by cbv⟩
  have hblock : HasBlock twoBlocks "one" firstBody :=
    ⟨[], ["-- keys".toList], "#one".toList, ["".toList, "#two".toList, "SELECT 1".toList], by cbv, by simp, by decide,
      by decide, by decide, by decide⟩
  have hdashes : DashesOutside firstBody := by
    intro front line back h hdash
    rcases front with _ | ⟨first, front⟩
    · cbv
    · have hrest : ∀ l ∈ firstBody.tail, ¬ ['-', '-'] <:+: l := by decide
      exact absurd hdash (hrest line (by simp [h]))
  obtain ⟨c', hload⟩ := hload
  obtain ⟨t, ws, ht, hsql, hws, -⟩ := statement_kept hload hblock hdashes
  exact ⟨c', t, ws, hload, hblock, hdashes, ht, hsql, hws⟩

/-- One block, with dashes in a literal that began on the line before. -/
def dashesInLiteral : String :=
  "#q\nSELECT 'a\nb -- c' FROM t WHERE k = :k\n"

def dashesBody : List (List Char) :=
  ["SELECT 'a".toList, "b -- c' FROM t WHERE k = :k".toList]

/-- The dashes are taken for a comment: the rest of the literal is lost, and what stands behind it with the marker. -/
theorem literal_cut :
    ∃ c' t t', (Catalog.empty '\\').load "r" dashesInLiteral = .ok (1, c') ∧ HasBlock dashesInLiteral "q" dashesBody ∧
      (∀ ws, Words (uncomment false (List.intercalate ['\n'] dashesBody)) ws →
        String.ofList (List.intercalate [' '] ws) = "SELECT 'a\nb -- c' FROM t WHERE k = :k") ∧
      c'.template "r" "q" = .ok t ∧ c'.statementSql "r" "q" = .ok "SELECT 'a\nb " ∧ t.markers = [] ∧
      Template.parse '\\' (String.ofList (uncomment false (List.intercalate ['\n'] dashesBody))) = .ok t' ∧
      t'.markers = [⟨"k", false, false, none⟩] := by
  have hload : ∃ c', (Catalog.empty '\\').load "r" dashesInLiteral = .ok (1, c') ∧ ∃ t, c'.template "r" "q" = .ok t ∧
      c'.statementSql "r" "q" = .ok "SELECT 'a\nb " ∧ t.markers = [] :=
    ⟨_, by cbv, _, by cbv, by cbv, by cbv⟩
  have hparse : ∃ t', Template.parse '\\' (String.ofList (uncomment false (List.intercalate ['\n'] dashesBody))) =
      .ok t' ∧ t'.markers = [⟨"k", false, false, none⟩] :=
    ⟨_, by cbv, by cbv⟩
  have hblock : HasBlock dashesInLiteral "q" dashesBody :=
    ⟨[], [], "#q".toList, [], by cbv, by simp, List.forall_mem_nil _, by decide, by decide, by simp⟩
  have hwords : ∀ ws, Words (uncomment false (List.intercalate ['\n'] dashesBody)) ws →
      String.ofList (List.intercalate [' '] ws) = "SELECT 'a\nb -- c' FROM t WHERE k = :k" := by
    intro ws hws
    rw [← hws.squeeze]
    cbv
  obtain ⟨c', hload, t, ht, hsql, hmarkers⟩ := hload
  obtain ⟨t', ht', hmarkers'⟩ := hparse
  exact ⟨c', t, t', hload, hblock, hwords, ht, hsql, hmarkers, ht', hmarkers'⟩

end Catalog

end NamedSql
