import NamedSql.Proofs.Nesting
import NamedSql.Vendor

/-!
# Where a trailing ORDER BY starts

`ClauseAt` says of a position of a text that ORDER BY starts there on the outermost level, as two whole words.
What `dropOrderBy` leaves is the text in front of the last such position, and the whole text if there is
none (`beforeLast?_spec`). As this position is on the outermost level, SQL that closes its quotes and
parentheses still does without its clause, and SQL Server's count can put it in parentheses.
-/

namespace NamedSql

namespace OrderBy

variable {s r word gap rest : List Char} {p : Place} {c : Char} {n : Nat}

/-- ORDER BY at the front of a text, in any case: two whole words with white space between them. -/
def Clause (s : List Char) : Prop :=
  ∃ first gap second rest, s = first ++ gap ++ second ++ rest ∧ first.map Char.toLower = "order".toList ∧
    second.map Char.toLower = "by".toList ∧ gap ≠ [] ∧ (∀ c ∈ gap, isSpace c = true) ∧
    ∀ c ∈ rest.head?, isWordChar c = false

/-- ORDER BY starts behind the first `n` characters, outside quotes and parentheses and not within a word. -/
structure ClauseAt (s : List Char) (n : Nat) : Prop where
  outermost : Outermost (s.take n)
  wordStart : ∀ c ∈ (s.take n).getLast?, isWordChar c = false
  clause : Clause (s.drop n)

/-! ### Words -/

theorem afterWord?_eq_some {keyword : List Char} : afterWord? keyword s = some r ↔
    ∃ word, s = word ++ r ∧ word.map Char.toLower = keyword ∧ ∀ c ∈ r.head?, isWordChar c = false := by
  induction keyword generalizing s with
  | nil =>
    have hword (word : List Char) : word.map Char.toLower = [] ↔ word = [] := List.map_eq_nil_iff
    cases s with
    | nil =>
      simp only [afterWord?, hword]
      constructor
      · rintro ⟨⟩
        exact ⟨[], rfl, rfl, by simp⟩
      · rintro ⟨word, hs, rfl, -⟩
        rw [show r = [] from hs.symm]
    | cons c s =>
      simp only [afterWord?, hword]
      constructor
      · intro h
        split at h
        · cases h
        · next hc =>
          cases h
          exact ⟨[], rfl, rfl, by simpa using hc⟩
      · rintro ⟨word, hs, rfl, hhead⟩
        rw [show r = c :: s from hs.symm] at hhead ⊢
        rw [if_neg (by simp [hhead c (by simp)])]
  | cons k keyword ih =>
    cases s with
    | nil =>
      refine ⟨nofun, ?_⟩
      rintro ⟨_ | ⟨c, word⟩, hs, hmap, -⟩
      · cases hmap
      · cases hs
    | cons c s =>
      show (if c.toLower == k then afterWord? keyword s else none) = some r ↔ _
      constructor
      · intro h
        split at h
        · next hc =>
          obtain ⟨word, rfl, hmap, hhead⟩ := ih.1 h
          exact ⟨c :: word, rfl, by rw [List.map_cons, hmap, eq_of_beq hc], hhead⟩
        · cases h
      · rintro ⟨_ | ⟨c', word⟩, hs, hmap, hhead⟩
        · cases hmap
        · obtain ⟨rfl, rfl⟩ := List.cons.inj hs
          obtain ⟨hc, hmap⟩ := List.cons.inj hmap
          rw [if_pos (beq_iff_eq.2 hc)]
          exact ih.2 ⟨word, rfl, hmap, hhead⟩

theorem isWordChar_of_isSpace (h : isSpace c = true) : isWordChar c = false := by
  simp only [isSpace, Bool.or_eq_true, beq_iff_eq] at h
  rcases h with (((rfl | rfl) | rfl) | rfl) | rfl <;> rfl

theorem not_isSpace_of_toLower {k : Char} (h : c.toLower = k) (hk : isSpace k = false) : isSpace c = false := by
  by_contra hspace
  rw [Bool.not_eq_false] at hspace
  simp only [isSpace, Bool.or_eq_true, beq_iff_eq] at hspace
  rcases hspace with (((rfl | rfl) | rfl) | rfl) | rfl <;> subst h <;> cases hk

theorem isOrderBy_iff : isOrderBy s = true ↔ Clause s := by
  unfold isOrderBy
  constructor
  · intro h
    split at h
    · cases h
    · next after horder =>
      obtain ⟨first, rfl, hfirst, -⟩ := afterWord?_eq_some.1 horder
      cases after with
      | nil => cases h
      | cons c after =>
        obtain ⟨hc, hby⟩ := (Bool.and_eq_true _ _).mp h
        obtain ⟨rest, hby⟩ := Option.isSome_iff_exists.1 hby
        obtain ⟨second, hsecond, hmap, hhead⟩ := afterWord?_eq_some.1 hby
        refine ⟨first, c :: after.takeWhile isSpace, second, rest, ?_, hfirst, hmap, by simp, ?_, hhead⟩
        · rw [List.append_assoc, ← hsecond, List.append_assoc, List.cons_append, List.takeWhile_append_dropWhile]
        · intro c' hc'
          rcases List.mem_cons.1 hc' with rfl | hc'
          · exact hc
          · exact List.mem_takeWhile_imp hc'
  · rintro ⟨first, gap, second, rest, rfl, hfirst, hsecond, hgap, hspace, hhead⟩
    obtain ⟨c, gap, rfl⟩ := List.exists_cons_of_ne_nil hgap
    have hc : isSpace c = true := hspace c (by simp)
    have horder : afterWord? "order".toList (first ++ c :: gap ++ second ++ rest) = some (c :: (gap ++ (second ++ rest))) :=
      afterWord?_eq_some.2 ⟨first, by simp, hfirst, by simpa using isWordChar_of_isSpace hc⟩
    -- the second word starts where the white space ends
    have hskip : (gap ++ (second ++ rest)).dropWhile isSpace = second ++ rest := by
      rw [List.dropWhile_append_of_pos fun c' hc' => hspace c' (by simp [hc'])]
      cases second with
      | nil => cases hsecond
      | cons b second =>
        have hb : isSpace b = false := not_isSpace_of_toLower (List.cons.inj hsecond).1 rfl
        rw [List.cons_append, List.dropWhile_cons_of_neg (by simp [hb])]
    have hby : afterWord? "by".toList (second ++ rest) = some rest :=
      afterWord?_eq_some.2 ⟨second, rfl, hsecond, hhead⟩
    rw [horder]
    show (isSpace c && (afterWord? "by".toList ((gap ++ (second ++ rest)).dropWhile isSpace)).isSome) = true
    rw [hskip, hby, hc]
    rfl

/-! ### The last clause -/

/-- Whether the scan from a place finds a clause behind the first `n` characters. -/
def Place.FindsAt (p : Place) (s : List Char) (n : Nat) : Prop :=
  (p.after (s.take n)).startsClause (s.drop n) = true

theorem findsAt_iff : Place.start.FindsAt s n ↔ ClauseAt s n := by
  unfold Place.FindsAt Place.startsClause
  rw [Bool.and_eq_true, Bool.and_eq_true, Bool.and_eq_true, isOrderBy_iff, Option.isNone_iff_eq_none, beq_iff_eq,
    Bool.not_eq_true', ← Bool.not_eq_true, Place.inWord_after]
  constructor
  · rintro ⟨⟨⟨hquote, hdepth⟩, hword⟩, hclause⟩
    exact ⟨outermost_iff.2 ⟨hquote, hdepth⟩, by simpa using hword, hclause⟩
  · rintro ⟨houter, hword, hclause⟩
    have hplace := outermost_iff.1 houter
    exact ⟨⟨⟨hplace.quote, hplace.depth⟩, by simpa using hword⟩, hclause⟩

theorem not_findsAt_nil : ¬ p.FindsAt [] n := by
  simp [Place.FindsAt, Place.startsClause, isOrderBy, afterWord?]

/-- The scan goes on behind each character, so what it keeps is the front of the last clause. -/
theorem beforeLast?_spec (p : Place) (s : List Char) :
    match beforeLast? p s with
    | none => ∀ n, ¬ p.FindsAt s n
    | some front => ∃ n, IsGreatest {n | p.FindsAt s n} n ∧ front = s.take n := by
  induction s generalizing p with
  | nil => exact fun n => not_findsAt_nil
  | cons c s ih =>
    have hsucc (n : Nat) : p.FindsAt (c :: s) (n + 1) ↔ (p.next c).FindsAt s n := Iff.rfl
    have hrest := ih (p.next c)
    rw [beforeLast?]
    cases hlater : beforeLast? (p.next c) s with
    | some front =>
      rw [hlater] at hrest
      obtain ⟨n, ⟨hn, hgreatest⟩, rfl⟩ := hrest
      refine ⟨n + 1, ⟨hn, fun m hm => ?_⟩, rfl⟩
      cases m with
      | zero => exact Nat.zero_le _
      | succ m => exact Nat.succ_le_succ (hgreatest hm)
    | none =>
      rw [hlater] at hrest
      dsimp only at hrest ⊢
      by_cases hhere : p.startsClause (c :: s) = true
      · rw [if_pos hhere]
        refine ⟨0, ⟨hhere, fun m hm => ?_⟩, rfl⟩
        cases m with
        | zero => exact Nat.le_refl _
        | succ m => exact absurd hm (hrest m)
      · rw [if_neg hhere]
        intro n hn
        cases n with
        | zero => exact hhere hn
        | succ n => exact hrest n hn

theorem drop_spec (s : List Char) : (∀ n, ¬ ClauseAt s n) ∧ drop s = s ∨
    ∃ n, IsGreatest {n | ClauseAt s n} n ∧ drop s = s.take n := by
  have hspec := beforeLast?_spec Place.start s
  simp only [findsAt_iff] at hspec
  unfold drop
  cases hlast : beforeLast? Place.start s with
  | none =>
    rw [hlast] at hspec
    exact .inl ⟨hspec, rfl⟩
  | some front =>
    rw [hlast] at hspec
    obtain ⟨n, hn, hfront⟩ := hspec
    exact .inr ⟨n, hn, hfront⟩

theorem drop_prefix (s : List Char) : drop s <+: s := by
  rcases drop_spec s with ⟨-, hs⟩ | ⟨n, -, hs⟩
  · rw [hs]
  · rw [hs]
    exact List.take_prefix n s

theorem Closed.drop (h : Closed s) : Closed (drop s) := by
  rcases drop_spec s with ⟨-, hs⟩ | ⟨n, hn, hs⟩
  · rw [hs]
    exact h
  · rw [hs]
    have hclause : ClauseAt s n := hn.1
    exact hclause.outermost.closed_of_append (by rwa [List.take_append_drop])

/-- A parenthesis between `before` and `inner` opens outside quotes, and of all parentheses behind it the one
behind `inner` closes it: this is the only one in front of which everything is closed. -/
structure Encloses (before inner after : List Char) : Prop where
  opens : Outermost before
  closes : ∀ inner' after', inner ++ ')' :: after = inner' ++ ')' :: after' → (Closed inner' ↔ inner' = inner)

theorem Closed.encloses {before inner : List Char} (h : Closed inner) (hbefore : Outermost before)
    (after : List Char) : Encloses before inner after :=
  ⟨hbefore, fun _ _ heq => ⟨fun h' => (h.unique h' heq).symm, fun heq => heq ▸ h⟩⟩

end OrderBy

open OrderBy

/-- SQL loses its last ORDER BY on the outermost level, with all that follows, and nothing else. SQL that
closes its quotes and parentheses still does then, and the parentheses that SQL Server's count puts around it
match each other. -/
theorem orderBy_dropped (sql : String) :
    (dropOrderBy sql).toList <+: sql.toList ∧
      ((∀ n, ¬ ClauseAt sql.toList n) ∧ dropOrderBy sql = sql ∨
        ∃ n, IsGreatest {n | ClauseAt sql.toList n} n ∧ (dropOrderBy sql).toList = sql.toList.take n) ∧
      (Closed sql.toList → Closed (dropOrderBy sql).toList ∧
        ∃ before after, (Vendor.countSql .mssql sql).toList = before ++ '(' :: ((dropOrderBy sql).toList ++ ')' :: after) ∧
          Encloses before (dropOrderBy sql).toList after) := by
  have hlist : (dropOrderBy sql).toList = OrderBy.drop sql.toList := String.toList_ofList
  refine ⟨hlist ▸ drop_prefix sql.toList, ?_, fun h => ?_⟩
  · rcases drop_spec sql.toList with ⟨hnone, hs⟩ | ⟨n, hn, hs⟩
    · exact .inl ⟨hnone, String.toList_inj.1 (hlist.trans hs)⟩
    · exact .inr ⟨n, hn, hlist.trans hs⟩
  · have hdropped : Closed (dropOrderBy sql).toList := hlist ▸ h.drop
    -- the parentheses of the star are closed in front
    have hstar : "SELECT COUNT(*) AS cnt FROM ".toList =
        "SELECT COUNT".toList ++ '(' :: (['*'] ++ ')' :: " AS cnt FROM ".toList) := by decide +kernel
    have hcolumns : Closed "SELECT COUNT(*) AS cnt FROM ".toList := by
      rw [hstar]
      exact (Closed.of_ordinary (by decide +kernel)).append
        (.group (.of_ordinary (by decide +kernel)) (.of_ordinary (by decide +kernel)))
    have hfront : "SELECT COUNT(*) AS cnt FROM (".toList = "SELECT COUNT(*) AS cnt FROM ".toList ++ ['('] := by
      decide +kernel
    have hback : ") AS sub".toList = ')' :: " AS sub".toList := by decide +kernel
    refine ⟨hdropped, "SELECT COUNT(*) AS cnt FROM ".toList, " AS sub".toList, ?_,
      hdropped.encloses (.closed hcolumns) _⟩
    show ("SELECT COUNT(*) AS cnt FROM (" ++ dropOrderBy sql ++ ") AS sub").toList = _
    rw [String.toList_append, String.toList_append, hfront, hback, List.append_assoc, List.append_assoc]
    rfl

/-- A query with a clause in a subquery, words and a parenthesis within a literal, and a clause of its own. -/
def nestedQuery : String :=
  "SELECT n FROM (SELECT n FROM t ORDER BY n) x WHERE s = 'it''s ) ORDER BY 1' oRdEr\n\tBy f(n)"

theorem orderBy_dropped_of_nested : Closed nestedQuery.toList ∧ Closed (dropOrderBy nestedQuery).toList ∧
    dropOrderBy nestedQuery = "SELECT n FROM (SELECT n FROM t ORDER BY n) x WHERE s = 'it''s ) ORDER BY 1' " := by
  have hsubquery : Closed ("SELECT n FROM ".toList ++ '(' :: ("SELECT n FROM t ORDER BY n".toList ++
      ')' :: " x WHERE s = ".toList)) :=
    (Closed.of_ordinary (by decide +kernel)).append
      (.group (.of_ordinary (by decide +kernel)) (.of_ordinary (by decide +kernel)))
  have hcall : Closed (" oRdEr\n\tBy f".toList ++ '(' :: (['n'] ++ ')' :: [])) :=
    (Closed.of_ordinary (by decide +kernel)).append (.group (.of_ordinary (by decide +kernel)) .nil)
  have hliteral : Closed ('\'' :: ("it".toList ++ '\'' :: '\'' :: ("s ) ORDER BY 1".toList ++
      '\'' :: (" oRdEr\n\tBy f".toList ++ '(' :: (['n'] ++ ')' :: []))))) :=
    .quoted (.inl rfl) (by decide +kernel) (.quoted (.inl rfl) (by decide +kernel) hcall)
  have htext : nestedQuery.toList = ("SELECT n FROM ".toList ++ '(' :: ("SELECT n FROM t ORDER BY n".toList ++
      ')' :: " x WHERE s = ".toList)) ++ '\'' :: ("it".toList ++ '\'' :: '\'' :: ("s ) ORDER BY 1".toList ++
      '\'' :: (" oRdEr\n\tBy f".toList ++ '(' :: (['n'] ++ ')' :: [])))) := by decide +kernel
  have hclosed : Closed nestedQuery.toList := by
    rw [htext]
    exact hsubquery.append hliteral
  exact ⟨hclosed, ((orderBy_dropped nestedQuery).2.2 hclosed).1, by decide +kernel⟩

end NamedSql
