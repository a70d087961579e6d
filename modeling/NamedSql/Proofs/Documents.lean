import NamedSql.Json
import NamedSql.Proofs.Digits
import NamedSql.Proofs.Roster

/-!
# Reading written documents

A JSON document whose numbers are integers is read from the text that is written for it, if it is not nested
deeper than documents are read (`ofText?_render`). Each part of it is read up to where it ends, and a value
ends in front of a comma or a closing bracket.
-/

namespace NamedSql.Json

open Decimal

/-- Documents with integers of 64 bits as their numbers and the members of objects in the order of their keys,
nested at most so deep. -/
inductive Integral : Nat → Json → Prop
  | null {depth : Nat} : Integral depth .null
  | boolean {depth : Nat} (b : Bool) : Integral depth (.boolean b)
  | integer {depth : Nat} {n : Int} (hlow : -(twoTo 63 : Int) ≤ n) (hhigh : n < twoTo 64) : Integral depth (.integer n)
  | string {depth : Nat} (s : String) : Integral depth (.string s)
  | array {depth : Nat} {items : List Json} (hitems : ∀ j ∈ items, Integral depth j) : Integral (depth + 1) (.array items)
  | object {depth : Nat} {members : List (String × Json)} (hkeys : members.Pairwise fun p q => p.1 < q.1)
      (hmembers : ∀ p ∈ members, Integral depth p.2) : Integral (depth + 1) (.object members)

/-- What may stand behind a value. -/
def Ends (rest : List Char) : Prop :=
  ∀ c ∈ rest.head?, c = ',' ∨ c = ']' ∨ c = '\x7d'

section
variable {rest : List Char}

theorem ends_nil : Ends [] := nofun

theorem ends_cons {c : Char} (hc : c = ',' ∨ c = ']' ∨ c = '\x7d') : Ends (c :: rest) := by
  intro d hd
  obtain rfl : c = d := Option.some.inj hd
  exact hc

theorem Ends.of {p : Char → Bool} (h : Ends rest) (hp : p ',' = false ∧ p ']' = false ∧ p '\x7d' = false) :
    ∀ c ∈ rest.head?, p c = false := by
  intro c hc
  rcases h c hc with rfl | rfl | rfl
  · exact hp.1
  · exact hp.2.1
  · exact hp.2.2

theorem skipSpace_cons {c : Char} (hc : isSpace c = false) : skipSpace (c :: rest) = c :: rest :=
  List.dropWhile_cons_of_neg (by rw [hc]; decide)

/-! ### Numbers -/

theorem readPart?_of_ends (h : Ends rest) : readPart? rest = some (none, rest) := by
  unfold readPart?
  split
  · rcases h '.' rfl with h | h | h <;> cases h
  · rfl

theorem readExponent?_of_ends (h : Ends rest) : readExponent? rest = some (none, rest) := by
  unfold readExponent?
  split
  · rfl
  · next c s =>
    have hc : (c == 'e' || c == 'E') = false := Ends.of h (p := fun c => c == 'e' || c == 'E') (by decide) c rfl
    rw [hc]
    rfl

theorem readNumeral?_toDigits (negative : Bool) (n : Nat) (h : Ends rest) :
    readNumeral? negative (Nat.toDigits 10 n ++ rest) =
      some (⟨negative, Nat.toDigits 10 n, none, none⟩, rest) := by
  have hend : ∀ c ∈ rest.head?, isDigit c = false := h.of (by decide)
  have htake : (Nat.toDigits 10 n ++ rest).takeWhile isDigit = Nat.toDigits 10 n :=
    Template.takeWhile_run isDigit_toDigits hend
  have hdrop : (Nat.toDigits 10 n ++ rest).dropWhile isDigit = rest := Template.dropWhile_run isDigit_toDigits hend
  have hguard : (!(Nat.toDigits 10 n).isEmpty &&
      ((Nat.toDigits 10 n).head? != some '0' || (Nat.toDigits 10 n).length == 1)) = true := by
    have hne : (Nat.toDigits 10 n).isEmpty = false := List.isEmpty_eq_false_iff.2 Nat.toDigits_ne_nil
    rcases Nat.eq_zero_or_pos n with rfl | hn
    · rfl
    · have hhead : ((Nat.toDigits 10 n).head? != some '0') = true := bne_iff_ne.2 (head?_toDigits hn)
      rw [hne, hhead]
      rfl
  simp only [readNumeral?, htake, hdrop, hguard, readPart?_of_ends h, readExponent?_of_ends h, guard_true,
    Option.bind_eq_bind, Option.bind_some, pure]

theorem le_ofDigitChars (digits : List Char) (n : Nat) : n ≤ Nat.ofDigitChars 10 digits n := by
  have hpower : 1 ≤ 10 ^ digits.length := Nat.one_le_pow _ _ (by decide)
  rw [Nat.ofDigitChars_eq_ofDigitChars_zero]
  calc n = 1 * n := (Nat.one_mul n).symm
    _ ≤ 10 ^ digits.length * n := Nat.mul_le_mul_right n hpower
    _ ≤ _ := Nat.le_add_right _ _

theorem gather_of_lt {digits : List Char} {n : Nat} (h : Nat.ofDigitChars 10 digits n < twoTo 64) :
    gather n digits = (Nat.ofDigitChars 10 digits n, []) := by
  induction digits generalizing n with
  | nil => rfl
  | cons c digits ih =>
    rw [Nat.ofDigitChars_cons] at h ⊢
    have hn : 10 * n + digitValue c < twoTo 64 := lt_of_le_of_lt (le_ofDigitChars digits _) h
    rw [gather, if_pos hn]
    exact ih h

theorem gather_toDigits {n : Nat} (h : n < twoTo 64) : gather 0 (Nat.toDigits 10 n) = (n, []) := by
  have hvalue : Nat.ofDigitChars 10 (Nat.toDigits 10 n) 0 = n := Nat.ofDigitChars_ten_toDigits
  rw [gather_of_lt (by rwa [hvalue]), hvalue]

theorem ofNumeral?_toDigits {n : Nat} (hn : n < twoTo 64) :
    ofNumeral? ⟨false, Nat.toDigits 10 n, none, none⟩ = some (.integer n) := by
  simp [ofNumeral?, gather_toDigits hn]

theorem ofNumeral?_minus {n : Nat} (hpositive : 0 < n) (hn : n ≤ twoTo 63) :
    ofNumeral? ⟨true, Nat.toDigits 10 n, none, none⟩ = some (.integer (-(n : Int))) := by
  have hlt : n < twoTo 64 := lt_of_le_of_lt hn (by decide)
  simp [ofNumeral?, gather_toDigits hlt, hpositive, hn]

theorem render_natCast (n : Nat) : (Json.integer n).render = Nat.toDigits 10 n := by
  rw [render]
  show (Nat.repr n).toList = _
  rw [Nat.repr_eq_ofList_toDigits, String.toList_ofList]

theorem render_neg {n : Nat} (hn : 0 < n) : (Json.integer (-(n : Int))).render = '-' :: Nat.toDigits 10 n := by
  obtain ⟨m, rfl⟩ : ∃ m, n = m + 1 := ⟨n - 1, by omega⟩
  rw [render]
  show ("-" ++ Nat.repr (m + 1)).toList = _
  rw [String.toList_append, Nat.repr_eq_ofList_toDigits, String.toList_ofList, String.toList_ofList]
  rfl

/-! ### Strings -/

theorem hexValue?_digitChar : ∀ n < 16, hexValue? (Nat.digitChar n) = some n := by
  decide

theorem hex4?_control {n : Nat} (hn : n < 0x20) :
    hex4? '0' '0' (Nat.digitChar (n / 16)) (Nat.digitChar (n % 16)) = some n := by
  have hzero : hexValue? '0' = some 0 := by decide
  have hhigh : hexValue? (Nat.digitChar (n / 16)) = some (n / 16) := hexValue?_digitChar _ (by omega)
  have hlow : hexValue? (Nat.digitChar (n % 16)) = some (n % 16) := hexValue?_digitChar _ (by omega)
  have hn : (0 * 16 + 0) * 256 + n / 16 * 16 + n % 16 = n := by omega
  rw [hex4?, hzero, hhigh, hlow]
  exact congrArg some hn

/-- A character is read from its escape, or from itself where it has none. -/
theorem readString?_escapeChar (c : Char) {s : List Char} {parts : List StringPart}
    (h : readString? s = some (parts, rest)) :
    ∃ part, readString? (escapeChar c ++ s) = some (part :: parts, rest) ∧
      ∀ text, joinParts? parts = some text → joinParts? (part :: parts) = some (c :: text) := by
  have hchar : ∀ text, joinParts? parts = some text → joinParts? (.char c :: parts) = some (c :: text) := by
    intro text htext
    rw [joinParts?, htext]
    rfl
  unfold escapeChar
  split
  case h_8 hquote hbackslash _ _ _ _ _ =>
    split
    · next hcontrol =>
      refine ⟨.unit c.toNat, ?_, fun text htext => ?_⟩
      · simp [readString?, hex4?_control hcontrol, h]
      · have hlow : (c.toNat < 0xD800 || 0xE000 ≤ c.toNat) = true := by
          rw [Bool.or_eq_true, decide_eq_true_eq]
          exact .inl (by omega)
        unfold joinParts?
        rw [if_pos hlow, htext, Char.ofNat_toNat]
        rfl
    · next hcontrol =>
      refine ⟨.char c, ?_, hchar⟩
      have hplain : (c.toNat < 0x20 || c == '\\') = false := by
        rw [Bool.or_eq_false_iff, decide_eq_false_iff_not, beq_eq_false_iff_ne]
        exact ⟨hcontrol, hbackslash⟩
      show readString? (c :: s) = _
      unfold readString?
      split
      · next heq => exact absurd (List.cons.inj heq).1 hquote
      · next heq => exact absurd (List.cons.inj heq).1 hbackslash
      · next heq => exact absurd (List.cons.inj heq).1 hbackslash
      · next heq =>
        obtain ⟨rfl, rfl⟩ := List.cons.inj heq
        rw [hplain, h]
        rfl
      · next heq => cases heq
  all_goals exact ⟨_, by simp [readString?, shortEscape?, h], hchar⟩

theorem readString?_render (s rest : List Char) :
    ∃ parts, readString? (s.flatMap escapeChar ++ '"' :: rest) = some (parts, rest) ∧ joinParts? parts = some s := by
  induction s with
  | nil => exact ⟨[], by simp [readString?], rfl⟩
  | cons c s ih =>
    obtain ⟨parts, hread, hjoin⟩ := ih
    obtain ⟨part, hpart, hcons⟩ := readString?_escapeChar c hread
    refine ⟨part :: parts, ?_, hcons s hjoin⟩
    rw [List.flatMap_cons, List.append_assoc]
    exact hpart

theorem renderString_append (s rest : List Char) :
    renderString s ++ rest = '"' :: (s.flatMap escapeChar ++ '"' :: rest) := by
  simp [renderString]

end

/-! ### Values -/

/-- The text of the document is read, up to where it ends, as a spelling of the document. -/
def ReadsBack (depth : Nat) (j : Json) : Prop :=
  ∀ fuel rest, 2 * j.render.length ≤ fuel → Ends rest →
    ∃ v, readValue? fuel (j.render ++ rest) = some (v, rest) ∧ ofSpelling? depth v = some j

section
variable {depth fuel : Nat} {c : Char} {s rest : List Char}

theorem readValue?_minus : readValue? (fuel + 1) ('-' :: s) =
    (readNumeral? true s).map fun (n, s) => (.number n, s) := rfl

theorem readValue?_quote : readValue? (fuel + 1) ('"' :: s) =
    (readString? s).map fun (parts, s) => (.string parts, s) := rfl

theorem readValue?_bracket (hspace : isSpace c = false) (hc : c ≠ ']') : readValue? (fuel + 1) ('[' :: c :: s) =
    (readItems? fuel (c :: s)).map fun (items, s) => (.array items, s) := by
  have hopen : skipSpace ('[' :: c :: s) = '[' :: c :: s := skipSpace_cons (by decide)
  simp [readValue?, hopen, skipSpace_cons hspace, hc]

theorem readValue?_brace : readValue? (fuel + 1) ('\x7b' :: '"' :: s) =
    (readMembers? fuel ('"' :: s)).map fun (members, s) => (.object members, s) := rfl

theorem readItems?_last {v : Spelling} (h : readValue? fuel s = some (v, ']' :: rest)) :
    readItems? (fuel + 1) s = some ([v], rest) := by
  unfold readItems?
  rw [h]
  rfl

theorem readItems?_more {v : Spelling} {vs : List Spelling} {more : List Char}
    (h : readValue? fuel s = some (v, ',' :: more)) (hmore : readItems? fuel more = some (vs, rest)) :
    readItems? (fuel + 1) s = some (v :: vs, rest) := by
  unfold readItems?
  rw [h]
  show ((readItems? fuel more).bind fun (items, s) => some (v :: items, s)) = _
  rw [hmore]
  rfl

theorem readMembers?_last {key : List StringPart} {v : Spelling} {value : List Char}
    (hkey : readString? s = some (key, ':' :: value)) (h : readValue? fuel value = some (v, '\x7d' :: rest)) :
    readMembers? (fuel + 1) ('"' :: s) = some ([(key, v)], rest) := by
  show ((readString? s).bind _) = _
  rw [hkey]
  show ((readValue? fuel value).bind _) = _
  rw [h]
  rfl

theorem readMembers?_more {key : List StringPart} {v : Spelling} {vs : List (List StringPart × Spelling)}
    {value more : List Char} (hkey : readString? s = some (key, ':' :: value))
    (h : readValue? fuel value = some (v, ',' :: more)) (hmore : readMembers? fuel more = some (vs, rest)) :
    readMembers? (fuel + 1) ('"' :: s) = some ((key, v) :: vs, rest) := by
  show ((readString? s).bind _) = _
  rw [hkey]
  show ((readValue? fuel value).bind _) = _
  rw [h]
  show ((readMembers? fuel more).bind fun (members, s) => some ((key, v) :: members, s)) = _
  rw [hmore]
  rfl

theorem isSpace_of_isDigit (hc : isDigit c = true) : isSpace c = false := by
  obtain ⟨hlow, -⟩ := Template.isDigit_iff.1 hc
  have hlow : 48 ≤ c.toNat := hlow
  have hne (d : Char) (hd : d.toNat < 48) : (c == d) = false := by
    rw [beq_eq_false_iff_ne]
    rintro rfl
    omega
  rw [isSpace, hne ' ' (by decide), hne '\n' (by decide), hne '\t' (by decide), hne '\r' (by decide)]
  rfl

theorem readValue?_digit (hc : isDigit c = true) :
    readValue? (fuel + 1) (c :: s) = (readNumeral? false (c :: s)).map fun (n, s) => (.number n, s) := by
  have hne (d : Char) (r : List Char) (hd : isDigit d = false) : c :: s ≠ d :: r := by
    intro h
    rw [(List.cons.inj h).1, hd] at hc
    cases hc
  unfold readValue?
  rw [skipSpace_cons (isSpace_of_isDigit hc)]
  split
  all_goals first | rfl | exact absurd ‹_› (hne _ _ (by decide))

theorem readsBack_integer {n : Int} (hlow : -(twoTo 63 : Int) ≤ n) (hhigh : n < twoTo 64) :
    ReadsBack depth (.integer n) := by
  intro fuel rest hfuel hrest
  rcases lt_or_ge n 0 with hneg | hpos
  · obtain ⟨m, rfl⟩ : ∃ m : Nat, n = -(m : Int) := ⟨n.natAbs, by omega⟩
    have hm : 0 < m := by omega
    rw [render_neg hm] at hfuel ⊢
    obtain ⟨fuel, rfl⟩ : ∃ f, fuel = f + 1 := ⟨fuel - 1, by rw [List.length_cons] at hfuel; omega⟩
    refine ⟨.number ⟨true, Nat.toDigits 10 m, none, none⟩, ?_, ofNumeral?_minus hm (by omega)⟩
    rw [List.cons_append, readValue?_minus, readNumeral?_toDigits true m hrest]
    rfl
  · obtain ⟨m, rfl⟩ : ∃ m : Nat, n = m := ⟨n.natAbs, by omega⟩
    obtain ⟨c, digits, hdigits⟩ := List.exists_cons_of_ne_nil (Nat.toDigits_ne_nil (n := m) (b := 10))
    have hc : isDigit c = true := isDigit_toDigits (n := m) c (by rw [hdigits]; exact List.mem_cons_self)
    rw [render_natCast] at hfuel ⊢
    obtain ⟨fuel, rfl⟩ : ∃ f, fuel = f + 1 := ⟨fuel - 1, by rw [hdigits, List.length_cons] at hfuel; omega⟩
    refine ⟨.number ⟨false, Nat.toDigits 10 m, none, none⟩, ?_, ofNumeral?_toDigits (by omega)⟩
    have hread : readValue? (fuel + 1) (Nat.toDigits 10 m ++ rest) =
        (readNumeral? false (Nat.toDigits 10 m ++ rest)).map fun (n, s) => (.number n, s) := by
      rw [hdigits]
      exact readValue?_digit hc
    rw [hread, readNumeral?_toDigits false m hrest]
    rfl

theorem readsBack_string (s : String) : ReadsBack depth (.string s) := by
  intro fuel rest hfuel _
  obtain ⟨parts, hread, hjoin⟩ := readString?_render s.toList rest
  rw [render] at hfuel ⊢
  rw [renderString_append]
  obtain ⟨fuel, rfl⟩ : ∃ f, fuel = f + 1 := ⟨fuel - 1, by simp [renderString] at hfuel; omega⟩
  refine ⟨.string parts, ?_, ?_⟩
  · rw [readValue?_quote, hread]
    rfl
  · rw [ofSpelling?, hjoin, Option.map_some, String.ofList_toList]

/-- The first character of a document is neither white space nor closes an array. -/
theorem Integral.exists_render_cons {j : Json} (h : Integral depth j) :
    ∃ c s, j.render = c :: s ∧ isSpace c = false ∧ c ≠ ']' := by
  cases h with
  | null => exact ⟨'n', _, rfl, by decide, by decide⟩
  | boolean b => cases b <;> exact ⟨_, _, rfl, by decide, by decide⟩
  | @integer _ n _ _ =>
    rcases lt_or_ge n 0 with hneg | hpos
    · obtain ⟨m, rfl⟩ : ∃ m : Nat, n = -(m : Int) := ⟨n.natAbs, by omega⟩
      exact ⟨'-', _, render_neg (by omega), by decide, by decide⟩
    · obtain ⟨m, rfl⟩ : ∃ m : Nat, n = m := ⟨n.natAbs, by omega⟩
      obtain ⟨c, digits, hdigits⟩ := List.exists_cons_of_ne_nil (Nat.toDigits_ne_nil (n := m) (b := 10))
      have hc : isDigit c = true := isDigit_toDigits (n := m) c (by rw [hdigits]; exact List.mem_cons_self)
      refine ⟨c, digits, (render_natCast m).trans hdigits, isSpace_of_isDigit hc, ?_⟩
      rintro rfl
      cases hc
  | string s => exact ⟨'"', _, by rw [render]; rfl, by decide, by decide⟩
  | array => exact ⟨'[', _, by rw [render]; rfl, by decide, by decide⟩
  | object => exact ⟨'\x7b', _, by rw [render]; rfl, by decide, by decide⟩

/-! ### Arrays and objects -/

theorem exists_renderItems_cons {j : Json} (h : j.render = c :: s) (items : List Json) :
    ∃ t, renderItems (j :: items) = c :: t := by
  cases items with
  | nil => exact ⟨s, by rw [renderItems, h]⟩
  | cons k items => exact ⟨s ++ ',' :: renderItems (k :: items), by simp [renderItems, h]⟩

theorem exists_renderMembers_cons (p : String × Json) (members : List (String × Json)) :
    ∃ t, renderMembers (p :: members) = '"' :: t := by
  cases members with
  | nil => exact ⟨_, rfl⟩
  | cons q members => exact ⟨_, rfl⟩

theorem exists_readItems? {items : List Json} (hitems : ∀ j ∈ items, ReadsBack depth j) (hne : items ≠ [])
    (hfuel : 2 * (renderItems items).length + 1 ≤ fuel) :
    ∃ vs, readItems? fuel (renderItems items ++ ']' :: rest) = some (vs, rest) ∧ itemsOf? depth vs = some items := by
  induction items generalizing fuel with
  | nil => exact absurd rfl hne
  | cons j items ih =>
    obtain ⟨hj, hothers⟩ := List.forall_mem_cons.1 hitems
    obtain ⟨fuel, rfl⟩ : ∃ f, fuel = f + 1 := ⟨fuel - 1, by omega⟩
    cases items with
    | nil =>
      rw [renderItems] at hfuel ⊢
      obtain ⟨v, hread, hv⟩ := hj fuel (']' :: rest) (by omega) (ends_cons (.inr (.inl rfl)))
      refine ⟨[v], readItems?_last hread, ?_⟩
      simp [itemsOf?, hv]
    | cons k items =>
      have hrender : renderItems (j :: k :: items) = j.render ++ ',' :: renderItems (k :: items) := by
        rw [renderItems]
        exact List.cons_ne_nil k items
      rw [hrender, List.length_append, List.length_cons] at hfuel
      obtain ⟨v, hread, hv⟩ := hj fuel (',' :: (renderItems (k :: items) ++ ']' :: rest)) (by omega)
        (ends_cons (.inl rfl))
      have hfuel' : 2 * (renderItems (k :: items)).length + 1 ≤ fuel := by omega
      obtain ⟨vs, hmore, hvs⟩ := ih hothers (List.cons_ne_nil k items) hfuel'
      refine ⟨v :: vs, ?_, ?_⟩
      · rw [hrender, List.append_assoc]
        exact readItems?_more hread hmore
      · simp [itemsOf?, hv, hvs]

/-- A member with the greatest key is put behind the others. -/
theorem putMember_last {found : List (String × Json)} {key : String} (h : ∀ p ∈ found, p.1 < key) (j : Json) :
    putMember key j found = found ++ [(key, j)] := by
  induction found with
  | nil => rfl
  | cons p found ih =>
    obtain ⟨hp, hothers⟩ := List.forall_mem_cons.1 h
    rw [putMember, if_neg hp.ne', if_neg hp.asymm, ih hothers]
    rfl

theorem exists_readMembers? {members : List (String × Json)} (hmembers : ∀ p ∈ members, ReadsBack depth p.2)
    (hne : members ≠ []) (hfuel : 2 * (renderMembers members).length + 1 ≤ fuel) :
    ∃ vs, readMembers? fuel (renderMembers members ++ '\x7d' :: rest) = some (vs, rest) ∧
      ∀ found : List (String × Json), (found ++ members).Pairwise (fun p q => p.1 < q.1) →
        membersOf? depth found vs = some (found ++ members) := by
  induction members generalizing fuel with
  | nil => exact absurd rfl hne
  | cons p members ih =>
    obtain ⟨name, j⟩ := p
    have hj : ReadsBack depth j := hmembers (name, j) List.mem_cons_self
    have hothers : ∀ p ∈ members, ReadsBack depth p.2 := fun p hp => hmembers p (List.mem_cons_of_mem _ hp)
    obtain ⟨fuel, rfl⟩ : ∃ f, fuel = f + 1 := ⟨fuel - 1, by omega⟩
    have hput (found : List (String × Json))
        (hkeys : (found ++ (name, j) :: members).Pairwise fun p q => p.1 < q.1) :
        putMember name j found = found ++ [(name, j)] :=
      putMember_last (fun q hq => (List.pairwise_append.1 hkeys).2.2 q hq (name, j) List.mem_cons_self) j
    cases members with
    | nil =>
      rw [renderMembers, List.length_append, List.length_cons] at hfuel
      obtain ⟨v, hread, hv⟩ := hj fuel ('\x7d' :: rest) (by omega) (ends_cons (.inr (.inr rfl)))
      obtain ⟨key, hkey, hname⟩ := readString?_render name.toList (':' :: (j.render ++ '\x7d' :: rest))
      refine ⟨[(key, v)], ?_, fun found hkeys => ?_⟩
      · rw [renderMembers, List.append_assoc, renderString_append]
        exact readMembers?_last hkey hread
      · simp [membersOf?, hv, hname, hput found hkeys, String.ofList_toList]
    | cons q members =>
      have hrender : renderMembers ((name, j) :: q :: members) =
          renderString name.toList ++ ':' :: (j.render ++ ',' :: renderMembers (q :: members)) := by
        rw [renderMembers]
        · simp
        · exact List.cons_ne_nil q members
      rw [hrender, List.length_append, List.length_cons, List.length_append, List.length_cons] at hfuel
      obtain ⟨v, hread, hv⟩ := hj fuel (',' :: (renderMembers (q :: members) ++ '\x7d' :: rest)) (by omega)
        (ends_cons (.inl rfl))
      have hfuel' : 2 * (renderMembers (q :: members)).length + 1 ≤ fuel := by omega
      obtain ⟨vs, hmore, hvs⟩ := ih hothers (List.cons_ne_nil q members) hfuel'
      obtain ⟨key, hkey, hname⟩ := readString?_render name.toList
        (':' :: (j.render ++ ',' :: (renderMembers (q :: members) ++ '\x7d' :: rest)))
      refine ⟨(key, v) :: vs, ?_, fun found hkeys => ?_⟩
      · have htext : renderMembers ((name, j) :: q :: members) ++ '\x7d' :: rest = renderString name.toList ++
            ':' :: (j.render ++ ',' :: (renderMembers (q :: members) ++ '\x7d' :: rest)) := by
          rw [hrender]
          simp
        rw [htext, renderString_append]
        exact readMembers?_more hkey hread hmore
      · have hsplit : found ++ (name, j) :: q :: members = (found ++ [(name, j)]) ++ q :: members := by simp
        have hlast := hvs (found ++ [(name, j)]) (hsplit ▸ hkeys)
        simp [membersOf?, hv, hname, hput found hkeys, String.ofList_toList, hlast]

/-! ### Documents -/

theorem readsBack_null : ReadsBack depth .null := by
  intro fuel rest hfuel _
  obtain ⟨fuel, rfl⟩ : ∃ f, fuel = f + 1 := ⟨fuel - 1, by simp [render] at hfuel; omega⟩
  exact ⟨.null, rfl, by rw [ofSpelling?]⟩

theorem readsBack_boolean (b : Bool) : ReadsBack depth (.boolean b) := by
  intro fuel rest hfuel _
  have hpositive : 0 < fuel := by cases b <;> simp [render] at hfuel <;> omega
  obtain ⟨fuel, rfl⟩ : ∃ f, fuel = f + 1 := ⟨fuel - 1, by omega⟩
  cases b with
  | true => exact ⟨.boolean true, rfl, by rw [ofSpelling?]⟩
  | false => exact ⟨.boolean false, rfl, by rw [ofSpelling?]⟩

theorem readsBack_array {items : List Json} (hitems : ∀ j ∈ items, Integral depth j)
    (hreads : ∀ j ∈ items, ReadsBack depth j) : ReadsBack (depth + 1) (.array items) := by
  intro fuel rest hfuel _
  have hlength : (Json.array items).render.length = (renderItems items).length + 2 := by simp [render]
  obtain ⟨fuel, rfl⟩ : ∃ f, fuel = f + 1 := ⟨fuel - 1, by omega⟩
  have hmore : 2 * (renderItems items).length + 1 ≤ fuel := by omega
  rcases items with _ | ⟨j, items⟩
  · exact ⟨.array [], rfl, by simp [ofSpelling?, itemsOf?]⟩
  · obtain ⟨vs, hread, hvs⟩ := exists_readItems? hreads (List.cons_ne_nil j items) hmore
    -- an array is told from an empty one by what follows the bracket
    obtain ⟨c, s, hs, hspace, hc⟩ := (hitems j List.mem_cons_self).exists_render_cons
    obtain ⟨t, ht⟩ := exists_renderItems_cons hs items
    rw [ht, List.cons_append] at hread
    refine ⟨.array vs, ?_, by simp [ofSpelling?, hvs]⟩
    have htext : (Json.array (j :: items)).render ++ rest = '[' :: c :: (t ++ ']' :: rest) := by
      rw [render, ht]
      simp
    rw [htext, readValue?_bracket hspace hc, hread]
    rfl

theorem readsBack_object {members : List (String × Json)} (hkeys : members.Pairwise fun p q => p.1 < q.1)
    (hreads : ∀ p ∈ members, ReadsBack depth p.2) : ReadsBack (depth + 1) (.object members) := by
  intro fuel rest hfuel _
  have hlength : (Json.object members).render.length = (renderMembers members).length + 2 := by simp [render]
  obtain ⟨fuel, rfl⟩ : ∃ f, fuel = f + 1 := ⟨fuel - 1, by omega⟩
  have hmore : 2 * (renderMembers members).length + 1 ≤ fuel := by omega
  rcases members with _ | ⟨p, members⟩
  · exact ⟨.object [], rfl, by simp [ofSpelling?, membersOf?]⟩
  · obtain ⟨vs, hread, hvs⟩ := exists_readMembers? hreads (List.cons_ne_nil p members) hmore
    obtain ⟨t, ht⟩ := exists_renderMembers_cons p members
    rw [ht, List.cons_append] at hread
    refine ⟨.object vs, ?_, by simp [ofSpelling?, hvs [] hkeys]⟩
    have htext : (Json.object (p :: members)).render ++ rest = '\x7b' :: '"' :: (t ++ '\x7d' :: rest) := by
      rw [render, ht]
      simp
    rw [htext, readValue?_brace, hread]
    rfl

theorem Integral.readsBack {j : Json} (h : Integral depth j) : ReadsBack depth j := by
  induction h with
  | null => exact readsBack_null
  | boolean b => exact readsBack_boolean b
  | integer hlow hhigh => exact readsBack_integer hlow hhigh
  | string s => exact readsBack_string s
  | array hitems ih => exact readsBack_array hitems ih
  | object hkeys _ ih => exact readsBack_object hkeys ih

end

theorem ofText?_render {j : Json} (h : Integral maxDepth j) : ofText? j.render = some j := by
  have hfuel : 2 * j.render.length ≤ 2 * j.render.length + 2 := by omega
  obtain ⟨v, hread, hv⟩ := h.readsBack _ [] hfuel ends_nil
  rw [List.append_nil] at hread
  rw [ofText?, Spelling.ofText?, hread]
  exact hv

end NamedSql.Json
