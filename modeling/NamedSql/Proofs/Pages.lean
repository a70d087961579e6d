import NamedSql.Proofs.Digits
import NamedSql.Proofs.Windows

/-!
# Pages

Every vendor has SQL of its own for a page, and one has none. `Query.Gives` says what the text of a paged
query means in terms of the rows of the query that is paged, and a text means one thing only
(`Query.Gives.unique`). What a statement gives out of the rows of the text that it executes is the same page
with every vendor (`Statement.pages_agree`).
-/

namespace NamedSql

variable {α : Type}

namespace Query

/-! ### What texts mean -/

/-- A query for the rows of `sql` with their numbers, all of them or those up to a number. -/
inductive Numbers (sql : String) (R : List α) : String → List (Nat × α) → Prop
  | all : Numbers sql R ("SELECT row_.*, ROWNUM rownum_ FROM (" ++ sql ++ ") row_") (Cut.number 1 R)
  | upTo (k : Nat) : Numbers sql R
      ("SELECT row_.*, ROWNUM rownum_ FROM (" ++ sql ++ ") row_ WHERE ROWNUM <= " ++ toString k)
      (Cut.number 1 (R.take k))

/-- A limit in front of an offset, and which of the rows behind the offset are within it. -/
inductive Limits : String → (List α → List α) → Prop
  | none : Limits "" id
  | any : Limits " LIMIT -1" id
  | count (n : Nat) : Limits (" LIMIT " ++ toString n) (List.take n)

/-- A query around `sql` in front of the number at its end, and the rows that it gives for each number. -/
inductive Clause (sql : String) (R : List α) : String → (Nat → List α) → Prop
  | limit : Clause sql R (sql ++ " LIMIT ") fun n => R.take n
  | offset {limits : String} {within : List α → List α} (h : Limits limits within) :
      Clause sql R (sql ++ limits ++ " OFFSET ") fun m => within (R.drop m)
  | rowNumber : Clause sql R ("SELECT * FROM (" ++ sql ++ ") WHERE ROWNUM <= ") fun k => R.take k
  | numbered {inner : String} {rows : List (Nat × α)} (h : Numbers sql R inner rows) :
      Clause sql R ("SELECT * FROM (" ++ inner ++ ") WHERE rownum_ > ")
        fun m => (rows.filter fun r => m < r.1).map Prod.snd

/-- The rows that a query gives, where `sql` gives the rows `R`. -/
inductive Gives (sql : String) (R : List α) : String → List α → Prop
  | query : Gives sql R sql R
  | clause {front : String} {rows : Nat → List α} (h : Clause sql R front rows) (n : Nat) :
      Gives sql R (front ++ toString n) (rows n)

/-! ### A text means one thing -/

/-- The characters of a text from its end. -/
def fromEnd (s : String) : List Char :=
  s.toList.reverse

theorem fromEnd_append (s t : String) : fromEnd (s ++ t) = fromEnd t ++ fromEnd s := by
  rw [fromEnd, String.toList_append, List.reverse_append]
  rfl

theorem isDigit_fromEnd_toString {n : Nat} : ∀ c ∈ fromEnd (toString n), Decimal.isDigit c = true := by
  intro c hc
  have hdigits : (toString n).toList = Nat.toDigits 10 n := Nat.toList_repr
  rw [fromEnd, hdigits, List.mem_reverse] at hc
  exact Decimal.isDigit_toDigits c hc

theorem toString_injective {m n : Nat} (h : toString m = toString n) : m = n := by
  have hdigits : Nat.toDigits 10 m = Nat.toDigits 10 n := by
    rw [← Nat.toList_repr, ← Nat.toList_repr]
    exact congrArg String.toList h
  calc m = Nat.ofDigitChars 10 (Nat.toDigits 10 m) 0 := Nat.ofDigitChars_ten_toDigits.symm
    _ = Nat.ofDigitChars 10 (Nat.toDigits 10 n) 0 := by rw [hdigits]
    _ = n := Nat.ofDigitChars_ten_toDigits

theorem length_toString_pos (n : Nat) : 0 < (toString n).length := by
  have hdigits : (toString n).toList = Nat.toDigits 10 n := Nat.toList_repr
  rw [← String.length_toList, hdigits]
  exact List.length_pos_iff.2 Nat.toDigits_ne_nil

/-- The number at the end of a text is where its last digits are. -/
theorem number_unique {front front' : String} {m n : Nat} (hfront : (fromEnd front).head? = some ' ')
    (hfront' : (fromEnd front').head? = some ' ') (h : front ++ toString m = front' ++ toString n) :
    front = front' ∧ m = n := by
  have hdigits : fromEnd (toString m) ++ fromEnd front = fromEnd (toString n) ++ fromEnd front' := by
    rw [← fromEnd_append, ← fromEnd_append, h]
  have hspace : ∀ s : String, (fromEnd s).head? = some ' ' → ∀ c ∈ (fromEnd s).head?, Decimal.isDigit c = false := by
    intro s hs c hc
    obtain rfl : ' ' = c := Option.some.inj (hs.symm.trans hc)
    rfl
  obtain ⟨hnumber, hrest⟩ := Template.run_unique isDigit_fromEnd_toString (hspace _ hfront) isDigit_fromEnd_toString
    (hspace _ hfront') hdigits
  exact ⟨String.toList_inj.1 (List.reverse_injective hrest),
    toString_injective (String.toList_inj.1 (List.reverse_injective hnumber))⟩

variable {sql text inner inner' front front' limits limits' : String} {R rows rows' : List α}

theorem Numbers.unique {rows rows' : List (Nat × α)} (h : Numbers sql R inner rows) (h' : Numbers sql R inner' rows')
    (hinner : inner = inner') : rows = rows' := by
  have hlonger : ∀ k : Nat, "SELECT row_.*, ROWNUM rownum_ FROM (" ++ sql ++ ") row_" ≠
      "SELECT row_.*, ROWNUM rownum_ FROM (" ++ sql ++ ") row_ WHERE ROWNUM <= " ++ toString k := by
    intro k hk
    have hlength := congrArg String.length hk
    simp only [String.length_append] at hlength
    have hliteral : (") row_").length < (") row_ WHERE ROWNUM <= ").length := by decide
    omega
  cases h with
  | all =>
    cases h' with
    | all => rfl
    | upTo k => exact absurd hinner (hlonger k)
  | upTo k =>
    cases h' with
    | all => exact absurd hinner.symm (hlonger k)
    | upTo k' => rw [toString_injective (String.append_right_inj _ |>.1 hinner)]

theorem Limits.unique {within within' : List α → List α} (h : Limits limits within) (h' : Limits limits' within')
    (hlimits : limits = limits') : within = within' := by
  have hsign : ∀ n : Nat, " LIMIT -1" ≠ " LIMIT " ++ toString n := by
    intro n hn
    have hdigits : "-1" = toString n := (String.append_right_inj " LIMIT ").1 hn
    have hdash : '-' ∈ fromEnd (toString n) := by
      rw [← hdigits]
      decide
    exact absurd (isDigit_fromEnd_toString _ hdash) (by decide)
  have hempty : ∀ n : Nat, "" ≠ " LIMIT " ++ toString n := by
    intro n hn
    have hlength := congrArg String.length hn
    rw [String.length_append] at hlength
    have : 0 < (" LIMIT ").length := by decide
    have : ("").length = 0 := rfl
    omega
  cases h with
  | none =>
    cases h' with
    | none => rfl
    | any => rfl
    | count n => exact absurd hlimits (hempty n)
  | any =>
    cases h' with
    | none => rfl
    | any => rfl
    | count n => exact absurd hlimits (hsign n)
  | count n =>
    cases h' with
    | none => exact absurd hlimits.symm (hempty n)
    | any => exact absurd hlimits.symm (hsign n)
    | count n' => rw [toString_injective ((String.append_right_inj " LIMIT ").1 hlimits)]

/-- The last three characters of a text. -/
def ending (s : String) : List Char :=
  (fromEnd s).take 3

theorem ending_append (s : String) {t : String} (ht : 3 ≤ t.length) : ending (s ++ t) = ending t := by
  rw [ending, fromEnd_append, List.take_append_of_le_length]
  · rfl
  · rwa [fromEnd, List.length_reverse, String.length_toList]

theorem ending_eq {s s' t t' : String} (ht : 3 ≤ t.length) (ht' : 3 ≤ t'.length) (h : s ++ t = s' ++ t') :
    ending t = ending t' := by
  rw [← ending_append s ht, h, ending_append s' ht']

/-- Two clauses of different kinds are told apart by their last three characters in front of the number. -/
theorem Clause.unique {rows rows' : Nat → List α} (h : Clause sql R front rows) (h' : Clause sql R front' rows')
    (hfront : front = front') : rows = rows' := by
  cases h with
  | limit =>
    cases h' with
    | limit => rfl
    | _ => exact absurd (ending_eq (by decide) (by decide) hfront) (by decide)
  | offset hlimits =>
    cases h' with
    | offset hlimits' =>
      have hsame := (String.append_right_inj sql).1 ((String.append_left_inj " OFFSET ").1 hfront)
      rw [hlimits.unique hlimits' hsame]
    | _ => exact absurd (ending_eq (by decide) (by decide) hfront) (by decide)
  | rowNumber =>
    cases h' with
    | rowNumber => rfl
    | _ => exact absurd (ending_eq (by decide) (by decide) hfront) (by decide)
  | numbered hinner =>
    cases h' with
    | numbered hinner' =>
      have hsame := (String.append_right_inj "SELECT * FROM (").1 ((String.append_left_inj ") WHERE rownum_ > ").1 hfront)
      rw [hinner.unique hinner' hsame]
    | _ => exact absurd (ending_eq (by decide) (by decide) hfront) (by decide)

theorem Clause.head?_fromEnd {rows : Nat → List α} (h : Clause sql R front rows) : (fromEnd front).head? = some ' ' := by
  cases h with
  | _ =>
    rw [fromEnd_append]
    rfl

theorem Clause.length_lt {rows : Nat → List α} (h : Clause sql R front rows) (n : Nat) :
    sql.length < (front ++ toString n).length := by
  have hnumber := length_toString_pos n
  cases h with
  | numbered hinner =>
    cases hinner with
    | _ =>
      simp only [String.length_append]
      omega
  | _ =>
    simp only [String.length_append]
    omega

theorem Gives.unique (h : Gives sql R text rows) (h' : Gives sql R text rows') : rows = rows' := by
  generalize htext : text = text' at h'
  cases h with
  | query =>
    cases h' with
    | query => rfl
    | clause hclause' n' => exact absurd (congrArg String.length htext) (hclause'.length_lt n').ne
  | clause hclause n =>
    cases h' with
    | query => exact absurd (congrArg String.length htext) (hclause.length_lt n).ne'
    | clause hclause' n' =>
      obtain ⟨hfront, rfl⟩ := number_unique hclause.head?_fromEnd hclause'.head?_fromEnd htext
      rw [hclause.unique hclause' hfront]

end Query

/-! ### Cuts -/

namespace Cut

open Query

theorem filter_le_number (k n : Nat) (R : List α) :
    (number n R).filter (fun r => r.1 ≤ k) = number n (R.take (k + 1 - n)) := by
  induction R generalizing n with
  | nil => simp [number]
  | cons r R ih =>
    by_cases hn : n ≤ k
    · have hnext : k + 1 - n = k + 1 - (n + 1) + 1 := by omega
      rw [hnext, List.take_succ_cons, number, number, List.filter_cons_of_pos (by simpa using hn), ih]
    · have hnone : k + 1 - n = 0 ∧ k + 1 - (n + 1) = 0 := by omega
      rw [number, List.filter_cons_of_neg (by simpa using hn), ih, hnone.1, hnone.2]
      rfl

theorem map_number (n : Nat) (R : List α) : (number n R).map Prod.snd = R := by
  induction R generalizing n with
  | nil => rfl
  | cons r R ih => rw [number, List.map_cons, ih]

theorem filter_lt_number (m n : Nat) (R : List α) :
    ((number n R).filter fun r => m < r.1).map Prod.snd = R.drop (m + 1 - n) := by
  induction R generalizing n with
  | nil => simp [number]
  | cons r R ih =>
    by_cases hn : m < n
    · have hnone : m + 1 - n = 0 ∧ m + 1 - (n + 1) = 0 := by omega
      rw [number, List.filter_cons_of_pos (by simpa using hn), List.map_cons, ih, hnone.1, hnone.2]
      rfl
    · have hnext : m + 1 - n = m + 1 - (n + 1) + 1 := by omega
      rw [number, List.filter_cons_of_neg (by simpa using hn), ih, hnext, List.drop_succ_cons]

/-- The text of a cut gives the rows that the cut stands for. -/
theorem gives_render (sql : String) (R : List α) (cut : Cut) : Gives sql R (cut.render sql) (cut.apply R) := by
  cases cut with
  | whole => exact .query
  | limit count => exact .clause .limit count.toNat
  | limitOffset count skip =>
    have h := Gives.clause (.offset (.count count.toNat) : Clause sql R _ _) skip.toNat
    rwa [← String.append_assoc] at h
  | anyLimitOffset skip =>
    have h := Gives.clause (.offset .any : Clause sql R _ _) skip.toNat
    have htext : sql ++ " LIMIT -1" ++ " OFFSET " = sql ++ " LIMIT -1 OFFSET " := by
      rw [String.append_assoc]
      rfl
    rwa [htext] at h
  | offset skip =>
    have h := Gives.clause (.offset .none : Clause sql R _ _) skip.toNat
    rwa [String.append_empty] at h
  | numbered count =>
    have h := Gives.clause (.rowNumber : Clause sql R _ _) count.toNat
    rwa [apply, filter_le_number, Nat.add_sub_cancel, map_number]
  | numberedBetween count skip =>
    have h := Gives.clause (.numbered (.upTo count.toNat) : Clause sql R _ _) skip.toNat
    have hopen : "SELECT * FROM (SELECT row_.*, ROWNUM rownum_ FROM (" =
        "SELECT * FROM (" ++ "SELECT row_.*, ROWNUM rownum_ FROM (" := by decide +kernel
    show Gives sql R ("SELECT * FROM (SELECT row_.*, ROWNUM rownum_ FROM (" ++ sql ++ ") row_ WHERE ROWNUM <= "
      ++ toString count.toNat ++ ") WHERE rownum_ > " ++ toString skip.toNat) _
    rw [apply, filter_le_number, Nat.add_sub_cancel, hopen]
    simpa only [String.append_assoc] using h
  | numberedAbove skip =>
    have h := Gives.clause (.numbered .all : Clause sql R _ _) skip.toNat
    have hopen : "SELECT * FROM (SELECT row_.*, ROWNUM rownum_ FROM (" =
        "SELECT * FROM (" ++ "SELECT row_.*, ROWNUM rownum_ FROM (" := by decide +kernel
    have hclose : ") row_) WHERE rownum_ > " = ") row_" ++ ") WHERE rownum_ > " := by decide +kernel
    show Gives sql R ("SELECT * FROM (SELECT row_.*, ROWNUM rownum_ FROM (" ++ sql ++ ") row_) WHERE rownum_ > "
      ++ toString skip.toNat) _
    rw [apply, hopen, hclose]
    simpa only [String.append_assoc] using h

end Cut

/-! ### The page of every vendor -/

namespace Vendor

theorem apply_cut {v : Vendor} (hv : v.pagesInSql = true) (p : Page) {R : List Row} (hR : R.length < twoTo 64) :
    (v.cut p).apply R = firstRows p.limit (R.drop p.offset.toNat) := by
  have hlength : R.length < 2 ^ 64 := hR
  rcases hlimit : p.limit with _ | n
  · by_cases hzero : p.offset = 0
    · have hwhole : v.cut p = .whole := by
        cases v with
        | _ => simp [cut, hlimit, hzero]
      rw [hwhole, hzero]
      rfl
    · cases v with
      | mssql => cases hv
      | postgres => simp only [cut, hlimit, hzero, if_false, Cut.apply, firstRows]
      | sqlite => simp only [cut, hlimit, hzero, if_false, Cut.apply, firstRows]
      | mysql =>
        -- The greatest number is no limit to the rows that there are.
        have hmost : (UInt64.ofNat (twoTo 64 - 1)).toNat = 2 ^ 64 - 1 := rfl
        have hall : (R.drop p.offset.toNat).take (2 ^ 64 - 1) = R.drop p.offset.toNat := by
          refine List.take_of_length_le ?_
          rw [List.length_drop]
          omega
        simp only [cut, hlimit, hzero, if_false, Cut.apply, firstRows, hmost, hall]
      | oracle =>
        simp only [cut, hlimit, hzero, if_false, Cut.apply, firstRows, Cut.filter_lt_number, Nat.add_sub_cancel]
  · by_cases hzero : p.offset = 0
    · have hfirst : (v.cut p).apply R = R.take n.toNat := by
        cases v with
        | mssql => cases hv
        | oracle =>
          simp only [cut, hlimit, hzero, if_true, Cut.apply, Cut.filter_le_number, Nat.add_sub_cancel, Cut.map_number]
        | _ => simp only [cut, hlimit, hzero, if_true, Cut.apply]
      rw [hfirst, hzero]
      rfl
    · cases v with
      | mssql => cases hv
      | oracle =>
        simp only [cut, hlimit, hzero, if_false, Cut.apply, firstRows, Cut.filter_le_number, Cut.filter_lt_number,
          Nat.add_sub_cancel, Window.drop_take_saturatingAdd hR]
      | _ => simp only [cut, hlimit, hzero, if_false, Cut.apply, firstRows]

end Vendor

namespace Statement

open Query

/-- A statement with a page executes the vendor's text for it. Of the rows that the text gives, the window gives
out those of the page, also when it lets the database cut them off behind the last one that it needs. -/
theorem pages_agree {v : Vendor} {st : Statement} {p : Page} (sql : String) {R : List Row} (hpage : st.page = some p)
    (hpaging : st.paging = pagingOf v st.page) (hR : R.length < twoTo 64) :
    st.executableSql v sql = v.pageSql sql p ∧
    (∃ rows, Gives sql R (v.pageSql sql p) rows) ∧
    ∀ rows, Gives sql R (v.pageSql sql p) rows →
      firstRows st.window.limit (rows.drop st.window.skip.toNat) = firstRows p.limit (R.drop p.offset.toNat) ∧
      st.window.select rows = firstRows p.limit (R.drop p.offset.toNat) := by
  have hgives : Gives sql R (v.pageSql sql p) ((v.cut p).apply R) := Cut.gives_render sql R (v.cut p)
  rw [hpage] at hpaging
  rcases hv : v.pagesInSql with _ | _
  · -- The text is the query itself, and the client skips.
    have hpaging : st.paging = .byClient := by
      rw [hpaging, pagingOf, hv]
      rfl
    have hwhole : v.cut p = .whole := by
      cases v with
      | mssql => rfl
      | _ => cases hv
    have htext : v.pageSql sql p = sql := by
      rw [Vendor.pageSql, hwhole]
      rfl
    have hwindow : st.window = .ofClient p := by rw [window, hpage, hpaging]
    rw [executableSql, hpage, hpaging]
    refine ⟨htext.symm, ⟨_, hgives⟩, fun rows hrows => ?_⟩
    obtain rfl : rows = R := by
      rw [hrows.unique hgives, hwhole]
      rfl
    rw [hwindow]
    exact ⟨rfl, Window.select_ofClient hR⟩
  · have hpaging : st.paging = .inSql := by
      rw [hpaging, pagingOf, hv]
      rfl
    have hwindow : st.window = .ofSql p := by rw [window, hpage, hpaging]
    rw [executableSql, hpage, hpaging]
    refine ⟨rfl, ⟨_, hgives⟩, fun rows hrows => ?_⟩
    have hpageRows : firstRows p.limit rows = firstRows p.limit (R.drop p.offset.toNat) := by
      rw [hrows.unique hgives, Vendor.apply_cut hv p hR]
      rcases p.limit with _ | n
      · rfl
      · simp only [firstRows, List.take_take, Nat.min_self]
    rw [hwindow, Window.select_ofSql]
    exact ⟨hpageRows, hpageRows⟩

/-- The page ends behind the greatest number of a row. -/
theorem pages_agree_behind_all_numbers :
    let st := ofTemplate .oracle ⟨"SELECT k FROM t", '\\', "SELECT k FROM t".toList.map .sql⟩
      (some ⟨3, some 18446744073709551615⟩)
    st.executableSql .oracle "SELECT k FROM t" = "SELECT * FROM (SELECT row_.*, ROWNUM rownum_ FROM (" ++
      "SELECT k FROM t) row_ WHERE ROWNUM <= 18446744073709551615) WHERE rownum_ > 2" ∧
    ∃ rows, Gives "SELECT k FROM t" listedRows (st.executableSql .oracle "SELECT k FROM t") rows ∧
      st.window.select rows = [[.integer 3]] := by
  intro st
  have hpaging : st.paging = pagingOf .oracle st.page := rfl
  obtain ⟨htext, ⟨rows, hrows⟩, hselect⟩ :=
    pages_agree "SELECT k FROM t" rfl hpaging (by decide : listedRows.length < twoTo 64)
  rw [htext]
  exact ⟨by decide +kernel, rows, hrows, (hselect rows hrows).2⟩

end Statement

end NamedSql
