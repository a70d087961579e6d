import NamedSql.Vendor.OrderBy
import Mathlib

/-!
# Quotes and parentheses in SQL

`Closed` texts close every quote and every parenthesis that they open, and close no others. `Outermost` texts
end outside quotes and parentheses, where a parenthesis that closes nothing does not count. The scan for
trailing clauses keeps only a quote and a depth; they say that a text is outermost (`outermost_iff`). No
closed text goes on behind a parenthesis that it does not open (`Closed.ne_stray`), so each parenthesis is
closed by one other only (`Closed.unique`).
-/

namespace NamedSql.OrderBy

/-- What starts and ends literals and quoted names. -/
def IsQuote (c : Char) : Prop :=
  c = '\'' ∨ c = '"'

/-- Characters that neither quote nor group. -/
def Ordinary (c : Char) : Prop :=
  ¬ IsQuote c ∧ c ≠ '(' ∧ c ≠ ')'

instance (c : Char) : Decidable (IsQuote c) :=
  inferInstanceAs (Decidable (_ ∨ _))

instance (c : Char) : Decidable (Ordinary c) :=
  inferInstanceAs (Decidable (_ ∧ _))

/-- Texts that close all quotes and parentheses that they open, and no others. A quote that is doubled within
quotes ends them and starts them again. -/
inductive Closed : List Char → Prop where
  | nil : Closed []
  | char {c : Char} {s : List Char} (h : Ordinary c) (hs : Closed s) : Closed (c :: s)
  | quoted {q : Char} {body s : List Char} (hq : IsQuote q) (hbody : q ∉ body) (hs : Closed s) :
    Closed (q :: (body ++ q :: s))
  | group {inner s : List Char} (hinner : Closed inner) (hs : Closed s) : Closed ('(' :: (inner ++ ')' :: s))

/-- Texts that end outside quotes and parentheses. A parenthesis that closes nothing does not count. -/
inductive Outermost : List Char → Prop where
  | closed {s : List Char} (h : Closed s) : Outermost s
  | stray {s t : List Char} (hs : Outermost s) (ht : Closed t) : Outermost (s ++ ')' :: t)

variable {s t r inner : List Char} {p : Place} {c q : Char} {d : Nat}

namespace Closed

theorem append (hs : Closed s) (ht : Closed t) : Closed (s ++ t) := by
  induction hs with
  | nil => exact ht
  | char h hs ih => exact .char h ih
  | quoted hq hbody hs ih => simpa using Closed.quoted hq hbody ih
  | group hinner hs ihinner ih => simpa using Closed.group hinner ih

theorem of_ordinary (h : s.all (fun c => decide (Ordinary c)) = true) : Closed s := by
  induction s with
  | nil => exact .nil
  | cons c s ih =>
    obtain ⟨hc, hs⟩ := (Bool.and_eq_true _ _).mp h
    exact .char (of_decide_eq_true hc) (ih hs)

end Closed

theorem Outermost.append (hs : Outermost s) (ht : Closed t) : Outermost (s ++ t) := by
  cases hs with
  | closed hs => exact .closed (hs.append ht)
  | stray hs hmid => simpa using Outermost.stray hs (hmid.append ht)

/-! ### Places -/

/-- The place behind a text. -/
def Place.after (p : Place) (s : List Char) : Place :=
  s.foldl Place.next p

/-- A place outside quotes, between `d` open parentheses. -/
structure Place.Outside (p : Place) (d : Nat) : Prop where
  quote : p.quote = none
  depth : p.depth = d

namespace Place

@[simp]
theorem after_nil : p.after [] = p := rfl

@[simp]
theorem after_cons : p.after (c :: s) = (p.next c).after s := rfl

theorem after_append : p.after (s ++ t) = (p.after s).after t := List.foldl_append ..

theorem after_concat : p.after (s ++ [c]) = (p.after s).next c := after_append

theorem inWord_next (p : Place) (c : Char) : (p.next c).inWord = isWordChar c := by
  unfold next
  split
  · rfl
  · split_ifs with h1 h2 h3
    · rcases Bool.or_eq_true _ _ ▸ h1 with h | h
      · rw [eq_of_beq h]; rfl
      · rw [eq_of_beq h]; rfl
    · rw [eq_of_beq h2]; rfl
    · rw [eq_of_beq h3]; rfl
    · rfl

theorem inWord_after : (start.after s).inWord = true ↔ ∃ c ∈ s.getLast?, isWordChar c = true := by
  rcases s.eq_nil_or_concat with rfl | ⟨front, c, rfl⟩
  · simp [start]
  · rw [List.concat_eq_append, after_concat, inWord_next]
    simp

theorem next_open (hp : p.quote = none) : p.next '(' = ⟨none, p.depth + 1, false⟩ := by
  simp [next, hp]

theorem next_close (hp : p.quote = none) : p.next ')' = ⟨none, p.depth - 1, false⟩ := by
  simp [next, hp]

theorem next_quote (hp : p.quote = none) (hq : IsQuote q) : p.next q = ⟨some q, p.depth, false⟩ := by
  rcases hq with rfl | rfl <;> simp [next, hp]

theorem next_ordinary (hp : p.quote = none) (hc : Ordinary c) : p.next c = ⟨none, p.depth, isWordChar c⟩ := by
  obtain ⟨hquote, hopen, hclose⟩ := hc
  have hquote : c ≠ '\'' ∧ c ≠ '"' := not_or.1 hquote
  simp [next, hp, hquote, hopen, hclose]

theorem next_quoted (hp : p.quote = some q) :
    p.next c = ⟨if c = q then none else some q, p.depth, isWordChar c⟩ := by
  simp [next, hp]

/-- Within quotes everything but the quote is passed over. -/
theorem after_quoted {body : List Char} (hp : p.quote = some q) (hbody : q ∉ body) :
    (p.after body).quote = some q ∧ (p.after body).depth = p.depth := by
  induction body generalizing p with
  | nil => exact ⟨hp, rfl⟩
  | cons c body ih =>
    have hc : c ≠ q := fun h => hbody (by simp [h])
    have hnext : p.next c = ⟨some q, p.depth, isWordChar c⟩ := by rw [next_quoted hp, if_neg hc]
    rw [after_cons, hnext]
    exact ih rfl fun h => hbody (by simp [h])

end Place

theorem Closed.outside (hs : Closed s) (hp : p.Outside d) : (p.after s).Outside d := by
  induction hs generalizing p d with
  | nil => exact hp
  | char h hs ih =>
    rw [Place.after_cons, Place.next_ordinary hp.quote h]
    exact ih ⟨rfl, hp.depth⟩
  | @quoted q body s hq hbody hs ih =>
    rw [Place.after_cons, Place.next_quote hp.quote hq, Place.after_append, Place.after_cons]
    obtain ⟨hquote, hdepth⟩ := Place.after_quoted (p := ⟨some q, p.depth, false⟩) rfl hbody
    rw [Place.next_quoted hquote, if_pos rfl, hdepth]
    exact ih ⟨rfl, hp.depth⟩
  | group hinner hs ihinner ih =>
    rw [Place.after_cons, Place.next_open hp.quote, Place.after_append, Place.after_cons, hp.depth]
    have hin := ihinner (p := ⟨none, d + 1, false⟩) ⟨rfl, rfl⟩
    rw [Place.next_close hin.quote, hin.depth]
    exact ih ⟨rfl, rfl⟩

theorem Outermost.outside (hs : Outermost s) : (Place.start.after s).Outside 0 := by
  induction hs with
  | closed h => exact h.outside ⟨rfl, rfl⟩
  | stray hs ht ih =>
    rw [Place.after_append, Place.after_cons, Place.next_close ih.quote, ih.depth]
    exact ht.outside ⟨rfl, rfl⟩

/-- Texts that end outside quotes between `d` open parentheses. -/
inductive Level : List Char → Nat → Prop where
  | outermost {s : List Char} (h : Outermost s) : Level s 0
  | inner {s t : List Char} {d : Nat} (hs : Level s d) (ht : Closed t) : Level (s ++ '(' :: t) (d + 1)

namespace Level

theorem append (hs : Level s d) (ht : Closed t) : Level (s ++ t) d := by
  cases hs with
  | outermost h => exact .outermost (h.append ht)
  | inner hs hmid => simpa using Level.inner hs (hmid.append ht)

theorem close (hs : Level s d) : Level (s ++ [')']) (d - 1) := by
  cases hs with
  | outermost h => exact .outermost (.stray h .nil)
  | inner hs ht =>
    have hgroup : Closed ('(' :: (_ ++ ')' :: [])) := .group ht .nil
    simpa using hs.append hgroup

end Level

/-- What a text is that leads to a place: outside quotes it has a level, within quotes they were opened at a
level and not closed since. -/
def Place.Behind (p : Place) (s : List Char) : Prop :=
  match p.quote with
  | none => Level s p.depth
  | some q => ∃ front body, s = front ++ q :: body ∧ Level front p.depth ∧ IsQuote q ∧ q ∉ body

theorem Place.Behind.next (hs : p.Behind s) (c : Char) : (p.next c).Behind (s ++ [c]) := by
  unfold Behind at hs
  cases hp : p.quote with
  | none =>
    rw [hp] at hs
    by_cases hc : Ordinary c
    · rw [next_ordinary hp hc]
      exact hs.append (.char hc .nil)
    by_cases hq : IsQuote c
    · rw [next_quote hp hq]
      exact ⟨s, [], rfl, hs, hq, List.not_mem_nil⟩
    by_cases hopen : c = '('
    · subst hopen
      rw [next_open hp]
      exact .inner hs .nil
    · have hclose : c = ')' := by
        by_contra hclose
        exact hc ⟨hq, hopen, hclose⟩
      subst hclose
      rw [next_close hp]
      exact hs.close
  | some q =>
    rw [hp] at hs
    obtain ⟨front, body, rfl, hfront, hq, hbody⟩ := hs
    rw [next_quoted hp]
    by_cases hc : c = q
    · -- the quotes end, and what they hold joins the level in front of them
      rw [if_pos hc, hc]
      have hquoted : Closed (q :: (body ++ q :: [])) := .quoted hq hbody .nil
      show Level _ p.depth
      simpa using hfront.append hquoted
    · rw [if_neg hc]
      refine ⟨front, body ++ [c], by simp, hfront, hq, ?_⟩
      simp [hbody, Ne.symm hc]

theorem Place.behind_after (s : List Char) : (Place.start.after s).Behind s := by
  induction s using List.reverseRecOn with
  | nil => exact .outermost (.closed .nil)
  | append_singleton s c ih =>
    rw [after_concat]
    exact ih.next c

/-- A text is outermost if the scan has no quote and no parenthesis open behind it. -/
theorem outermost_iff : Outermost s ↔ (Place.start.after s).Outside 0 := by
  refine ⟨Outermost.outside, fun h => ?_⟩
  have hs := Place.behind_after s
  unfold Place.Behind at hs
  rw [h.quote, h.depth] at hs
  cases hs with
  | outermost h => exact h

/-! ### What closes a parenthesis -/

/-- A parenthesis that closes nothing puts the scan at depth 0 whether it starts there or one level deeper,
while a closed text leads back to the depth at which it starts. -/
theorem Closed.ne_stray (hs : Closed s) (ht : Closed t) : s ≠ t ++ ')' :: r := by
  rintro rfl
  have hbehind (d : Nat) (hd : d ≤ 1) :
      (Place.mk none d false).after (t ++ ')' :: r) = (Place.mk none 0 false).after r := by
    have houtside := ht.outside (p := ⟨none, d, false⟩) ⟨rfl, rfl⟩
    rw [Place.after_append, Place.after_cons, Place.next_close houtside.quote, houtside.depth, Nat.sub_eq_zero_of_le hd]
  have hzero := (hs.outside (p := ⟨none, 0, false⟩) (d := 0) ⟨rfl, rfl⟩).depth
  have hone := (hs.outside (p := ⟨none, 1, false⟩) (d := 1) ⟨rfl, rfl⟩).depth
  rw [hbehind 0 (by omega)] at hzero
  rw [hbehind 1 (by omega)] at hone
  omega

/-- The front of a closed text, up to a place of the outermost level, is closed. -/
theorem Outermost.closed_of_append (hs : Outermost s) (h : Closed (s ++ r)) : Closed s := by
  induction hs generalizing r with
  | closed hs => exact hs
  | @stray s t hs ht ih =>
    rw [List.append_assoc] at h
    exact absurd rfl (h.ne_stray (ih h))

/-- There is one closed text between a parenthesis and the one that closes it. -/
theorem Closed.unique {inner' t' : List Char} (h : Closed inner) (h' : Closed inner')
    (heq : inner ++ ')' :: t = inner' ++ ')' :: t') : inner = inner' := by
  rcases List.append_eq_append_iff.1 heq with ⟨more, hmore, hrest⟩ | ⟨more, hmore, hrest⟩
  · cases more with
    | nil => simpa using hmore.symm
    | cons c more =>
      obtain rfl : ')' = c := (List.cons.inj hrest).1
      exact absurd hmore (h'.ne_stray h)
  · cases more with
    | nil => simpa using hmore
    | cons c more =>
      obtain rfl : ')' = c := (List.cons.inj hrest).1
      exact absurd hmore (h.ne_stray h')

end NamedSql.OrderBy
