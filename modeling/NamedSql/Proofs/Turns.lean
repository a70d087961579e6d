import NamedSql.Flow

/-!
# Turns

The history of something with a state: actions on it, and in between whatever happens to the state
otherwise. `play` keeps for each action the state as the action found it and as it left it.
-/

namespace NamedSql

variable {ε σ α β : Type}

/-- An action, or something that happens meanwhile. -/
inductive Turn (σ α : Type) where
  | act (action : α)
  | meanwhile (change : σ → σ)

/-- An action that was played, how it ended, and the state around it. -/
structure Played (ε σ α β : Type) where
  action : α
  found : σ
  outcome : Outcome ε β
  left : σ

section
variable (perform : α → Flow ε σ β)

/-- The actions of the turns as they are played one after another, whatever becomes of each, and the state
in the end. -/
def play : List (Turn σ α) → σ → List (Played ε σ α β) × σ
  | [], s => ([], s)
  | .act action :: rest, s =>
    let (r, left) := perform action s
    let (played, last) := play rest left
    (⟨action, s, r, left⟩ :: played, last)
  | .meanwhile change :: rest, s => play rest (change s)

def Played.Honest (p : Played ε σ α β) : Prop :=
  perform p.action p.found = (p.outcome, p.left)

end

variable {perform : α → Flow ε σ β} {s last : σ} {turns : List (Turn σ α)} {played : List (Played ε σ α β)}

theorem play_act {action : α} (h : play perform (.act action :: turns) s = (played, last)) :
    ∃ (p : Played ε σ α β) (others : List (Played ε σ α β)), p.action = action ∧ p.found = s ∧
      p.Honest perform ∧ play perform turns p.left = (others, last) ∧ played = p :: others := by
  rcases hperform : perform action s with ⟨r, left⟩
  rcases hrest : play perform turns left with ⟨others, last'⟩
  have hplay : play perform (.act action :: turns) s = (⟨action, s, r, left⟩ :: others, last') := by
    rw [play, hperform]
    dsimp only
    rw [hrest]
  rw [hplay] at h
  obtain ⟨rfl, rfl⟩ := Prod.mk.inj h
  exact ⟨⟨action, s, r, left⟩, others, rfl, rfl, hperform, hrest, rfl⟩

theorem honest_of_play (h : play perform turns s = (played, last)) :
    ∀ p ∈ played, p.Honest perform ∧ .act p.action ∈ turns := by
  induction turns generalizing s played with
  | nil =>
    obtain ⟨rfl, rfl⟩ := Prod.mk.inj h
    exact List.forall_mem_nil _
  | cons turn rest ih =>
    cases turn with
    | act action =>
      obtain ⟨p, others, rfl, -, hhonest, hrest, rfl⟩ := play_act h
      refine List.forall_mem_cons.2 ⟨⟨hhonest, List.mem_cons_self⟩, fun q hq => ?_⟩
      exact ⟨(ih hrest q hq).1, List.mem_cons_of_mem _ (ih hrest q hq).2⟩
    | meanwhile change => exact fun p hp => ⟨(ih h p hp).1, List.mem_cons_of_mem _ (ih h p hp).2⟩

theorem Played.Honest.left_eq {p : Played ε σ α β} (h : p.Honest perform) : (perform p.action p.found).2 = p.left :=
  congrArg Prod.snd h

/-- What the played actions and the rest of the turns keep holds around every action and in the end. -/
theorem play_keeps {I : σ → Prop}
    (hact : ∀ p ∈ played, p.Honest perform → .act p.action ∈ turns → I p.found → I p.left)
    (hmeanwhile : ∀ change, .meanwhile change ∈ turns → ∀ s, I s → I (change s)) (hs : I s)
    (h : play perform turns s = (played, last)) : (∀ p ∈ played, I p.found ∧ I p.left) ∧ I last := by
  induction turns generalizing s played with
  | nil =>
    obtain ⟨rfl, rfl⟩ := Prod.mk.inj h
    exact ⟨List.forall_mem_nil _, hs⟩
  | cons turn rest ih =>
    have hmeanwhile' : ∀ change, .meanwhile change ∈ rest → ∀ s, I s → I (change s) := fun change hc =>
      hmeanwhile change (List.mem_cons_of_mem _ hc)
    cases turn with
    | act action =>
      obtain ⟨p, others, rfl, rfl, hhonest, hrest, rfl⟩ := play_act h
      have hleft : I p.left := hact p List.mem_cons_self hhonest List.mem_cons_self hs
      obtain ⟨hplayed, hlast⟩ := ih (fun q hq hh ha => hact q (List.mem_cons_of_mem _ hq) hh
        (List.mem_cons_of_mem _ ha)) hmeanwhile' hleft hrest
      exact ⟨List.forall_mem_cons.2 ⟨⟨hs, hleft⟩, hplayed⟩, hlast⟩
    | meanwhile change =>
      exact ih (fun q hq hh ha => hact q hq hh (List.mem_cons_of_mem _ ha)) hmeanwhile'
        (hmeanwhile change List.mem_cons_self s hs) h

theorem play_split {front rest : List (Played ε σ α β)} {p : Played ε σ α β}
    (h : play perform turns s = (front ++ p :: rest, last)) :
    ∃ earlier later, turns = earlier ++ .act p.action :: later ∧ play perform earlier s = (front, p.found) ∧
      p.Honest perform ∧ play perform later p.left = (rest, last) := by
  induction turns generalizing s front with
  | nil => exact absurd (congrArg Prod.fst h) (List.append_ne_nil_of_right_ne_nil front (List.cons_ne_nil p rest)).symm
  | cons turn others ih =>
    cases turn with
    | act action =>
      obtain ⟨q, played, rfl, rfl, hhonest, hrest, hplayed⟩ := play_act h
      cases front with
      | nil =>
        obtain ⟨rfl, rfl⟩ := List.cons.inj hplayed
        exact ⟨[], others, rfl, rfl, hhonest, hrest⟩
      | cons first front =>
        obtain ⟨rfl, rfl⟩ := List.cons.inj hplayed
        obtain ⟨earlier, later, rfl, hearlier, hp, hlater⟩ := ih hrest
        refine ⟨.act first.action :: earlier, later, rfl, ?_, hp, hlater⟩
        rw [play, show perform first.action first.found = (first.outcome, first.left) from hhonest]
        dsimp only
        rw [hearlier]
    | meanwhile change =>
      obtain ⟨earlier, later, rfl, hearlier, hp, hlater⟩ := ih h
      exact ⟨.meanwhile change :: earlier, later, rfl, hearlier, hp, hlater⟩

end NamedSql
