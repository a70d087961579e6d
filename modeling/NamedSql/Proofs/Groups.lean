import NamedSql.Proofs.Roster
import NamedSql.Proofs.Termination

/-!
# Groups that are closed

A session is tidy in every state that deeds lead to (`Session.Reached.tidy`), and so are the sessions of a
group. Closing the group therefore ends each of them in the same way, whichever of them fail, and the failure
is that of the first one in the order of the names (`terminations_total`).
-/

namespace NamedSql

open NamedSql.Flow

variable {σ α : Type} {b : Backend σ}

/-! ### States that are reached -/

namespace Session

/-- The states of a watched session: after its start, after deeds that returned, and after anything that
leaves the session alone. -/
inductive Reached (b : Backend σ) : Line (Watched σ) → Prop
  | start (name : String) (settings : Settings) (world : World (Watched σ)) (log : List Event) :
      Reached b ⟨.start name settings, world, log⟩
  | act {l l' : Line (Watched σ)} {r : Outcome Failure Unit} (h : Reached b l) (deed : Deed)
      (hdeed : deed.perform b.watched l = (r, l')) (hreturned : r ≠ .overflow) : Reached b l'
  | meanwhile {l l' : Line (Watched σ)} (h : Reached b l) (hsession : l'.session = l.session) : Reached b l'

theorem tidy_start (name : String) (settings : Settings) : Tidy (start name settings) :=
  ⟨List.nodup_nil, List.forall_mem_nil _, nofun⟩

/-- What holds of sessions that are not over. -/
structure Current (s : Session) : Prop where
  nodup : s.handles.Nodup
  given : ∀ handle ∈ s.handles, handle < s.nextHandle
  terminated : s.terminated = false

theorem Current.tidy {s : Session} (h : Current s) : Tidy s :=
  ⟨h.nodup, h.given, fun hover => Bool.noConfusion (h.terminated.symm.trans hover)⟩

theorem steady_current : Steady Current where
  opened s hs :=
    have h : Given _ := steady_given.opened s ⟨hs.nodup, hs.given⟩
    ⟨h.nodup, h.given, hs.terminated⟩
  released s handle hs :=
    have h : Given _ := steady_given.released s handle ⟨hs.nodup, hs.given⟩
    ⟨h.nodup, h.given, hs.terminated⟩

theorem ends_deed {l : Line (Watched σ)} (hl : Current l.session) (deed : Deed) :
    ends (deed.perform b.watched) (fun _ l' => Tidy l'.session) (fun _ l' => Tidy l'.session) (fun _ => True) l := by
  have hupheld : Upholds b.watched (Line.Has Current fun _ => True) := .has steady_current (.trivially _)
  have hkept {m : Dialog (Watched σ) Unit} (hm : Obeys (.always Failure (Line.Has Current fun _ => True)) m) :
      ends m (fun _ l' => Tidy l'.session) (fun _ l' => Tidy l'.session) (fun _ => True) l :=
    ends_mono (hm l ⟨hl, trivial⟩) (fun _ _ h => h.session.tidy) (fun _ _ h => h.session.tidy) fun _ _ => trivial
  have htransaction (l : Line (Watched σ)) (transaction : Option (Option TimeLimit))
      (hl : l.Has Current fun _ => True) : Line.Has Current (fun _ => True)
        { l with session := { l.session with transaction } } :=
    ⟨⟨hl.session.nodup, hl.session.given, hl.session.terminated⟩, trivial⟩
  have hended : ends (terminate b.watched) (fun _ l' => Tidy l'.session) (fun _ l' => Tidy l'.session)
      (fun _ => True) l :=
    ends_mono (over_of_terminate hl.terminated) (fun _ _ h => .of_over h) (fun _ _ h => .of_over h) fun _ h => h
  cases hcloses : deed.closes with
  | false =>
    refine hkept (hupheld.deed htransaction (Statement.has_create steady_current _)
      (fun st memos action => Statement.has_atDesk (Statement.has_perform steady_current _ action) st memos) fun h => ?_)
    rw [hcloses] at h
    cases h
  | true =>
    cases deed with
    | terminate => exact hended
    | drop =>
      show ends (drop b.watched) _ _ _ l
      unfold drop
      rw [ends_bind, ends_attempt]
      exact ends_mono hended (fun _ _ h => h) (fun _ _ h => h) fun _ h => h
    | _ => cases hcloses

theorem Tidy.deed {l l' : Line (Watched σ)} {r : Outcome Failure Unit} (hl : Tidy l.session) {deed : Deed}
    (hdeed : deed.perform b.watched l = (r, l')) (hreturned : r ≠ .overflow) : Tidy l'.session := by
  cases hopen : l.session.terminated with
  | true =>
    have hleft := (over_deed (b := b.watched) (W := fun _ => True) deed l ⟨hl.ended hopen, trivial⟩).left
    rw [hdeed] at hleft
    exact .of_over hleft.session
  | false =>
    have hends := ends_deed (b := b) ⟨hl.nodup, hl.given, hopen⟩ deed
    unfold ends at hends
    rw [hdeed] at hends
    cases r with
    | done u => exact hends
    | failed e => exact hends
    | overflow => exact absurd rfl hreturned

theorem Reached.tidy {l : Line (Watched σ)} (h : Reached b l) : Tidy l.session := by
  induction h with
  | start name settings world log => exact tidy_start name settings
  | act _ deed hdeed hreturned ih => exact ih.deed hdeed hreturned
  | meanwhile _ hsession ih => exact hsession ▸ ih

/-- Terminating a watched session, which is what it is without watching: all its steps, and what is seen of
them. -/
structure Terminates (b : Backend σ) (l : Line (Watched σ)) (failure : Option Failure) (l' : Line (Watched σ)) :
    Prop where
  run : terminate b l.unwatched = (.ofCause failure, l'.unwatched)
  ended : Ended b.watched l failure l'
  calls : Since (Accounted l.session) l.world.link.seen l'.world

theorem ends_terminates {l : Line (Watched σ)} (hl : Tidy l.session) :
    ends (terminate b.watched) (fun _ => Terminates b l none) (fun e => Terminates b l (some e))
      (fun l' => RunsOut l.world.link.seen l'.world) l := by
  have hrun {r : Outcome Failure Unit} {l' : Line (Watched σ)} (h : terminate b.watched l = (r, l')) :
      terminate b l.unwatched = (r, l'.unwatched) :=
    (alike_terminate b.alike_watched).image Line.alike_unwatched_iff h
  exact ends_mono ((ends_self _ _).and (ends_terminate hl)) (fun _ _ h => ⟨hrun h.1, h.2, h.2.accounted hl⟩)
    (fun _ _ h => ⟨hrun h.1, h.2, h.2.accounted hl⟩) fun _ h => h.2

end Session

namespace SessionGroup

/-! ### Work with one session -/

/-- The group after work on the line of a name. -/
def put (g : SessionGroup σ) (name : String) (l : Line σ) : SessionGroup σ :=
  { g.noteLine l with members := g.members.put name ⟨l.session, l.world.link⟩ }

theorem ends_use {Q : α → SessionGroup σ → Prop} {E : Failure → SessionGroup σ → Prop} {O : SessionGroup σ → Prop}
    {g : SessionGroup σ} {name : String} {m : Member σ} (hm : g.members.get? name = some m) (d : Dialog σ α) :
    ends (use name d) Q E O g ↔
      ends d (fun a l => Q a (g.put name l)) (fun e l => E e (g.put name l)) (fun l => O (g.put name l)) (g.line m) := by
  unfold ends use
  rw [hm]
  dsimp only
  rcases d (g.line m) with ⟨_ | _ | _, l⟩ <;> rfl

/-- The members are in order, and their sessions are tidy. -/
structure Orderly (g : SessionGroup σ) : Prop where
  ascending : g.members.Ascending
  tidy : ∀ p ∈ g.members, Session.Tidy p.2.session

theorem Orderly.put {g : SessionGroup σ} (h : Orderly g) (name : String) {l : Line σ} (hl : Session.Tidy l.session) :
    Orderly (g.put name l) := by
  refine ⟨h.ascending.put, fun p hp => ?_⟩
  rcases Roster.mem_put hp with rfl | hp
  · exact hl
  · exact h.tidy p hp

theorem Orderly.tidy_get? {g : SessionGroup σ} (h : Orderly g) {name : String} {m : Member σ}
    (hm : g.members.get? name = some m) : Session.Tidy m.session :=
  h.tidy _ (Roster.mem_of_get? hm)

/-! ### Groups that are reached -/

/-- What can be done with a group short of closing it. -/
inductive Errand (σ : Type) where
  | insert (name : String) (settings : Settings) (link : σ)
  | use (name : String) (deed : Session.Deed)

def Errand.perform (b : Backend σ) : Errand σ → GroupWork σ Unit
  | insert name settings link => SessionGroup.insert b name settings link
  | use name deed => SessionGroup.use name (deed.perform b)

/-- The sessions under their names. -/
def sessions (g : SessionGroup σ) : Roster Session :=
  g.members.map fun p => (p.1, p.2.session)

/-- The states of a group of watched sessions: when it is empty, after work that returned, and after anything
that leaves its sessions alone. -/
inductive Reached (b : Backend σ) : SessionGroup (Watched σ) → Prop
  | empty (now : Instant) : Reached b (.empty now)
  | act {g g' : SessionGroup (Watched σ)} {r : Outcome Failure Unit} (h : Reached b g) (errand : Errand (Watched σ))
      (herrand : errand.perform b.watched g = (r, g')) (hreturned : r ≠ .overflow) : Reached b g'
  | meanwhile {g g' : SessionGroup (Watched σ)} (h : Reached b g) (hsessions : g'.sessions = g.sessions) :
      Reached b g'

theorem Orderly.of_sessions {g g' : SessionGroup σ} (h : Orderly g) (hsessions : g'.sessions = g.sessions) :
    Orderly g' := by
  have hiff (g : SessionGroup σ) : Orderly g ↔ g.sessions.Ascending ∧ ∀ p ∈ g.sessions, Session.Tidy p.2 := by
    unfold sessions Roster.Ascending
    rw [List.pairwise_map, List.forall_mem_map]
    exact ⟨fun h => ⟨h.ascending, h.tidy⟩, fun h => ⟨h.1, h.2⟩⟩
  rw [hiff, hsessions, ← hiff]
  exact h

theorem orderly_insert (name : String) (settings : Settings) (link : σ) :
    Obeys (.always Failure Orderly) (insert b name settings link) := by
  have hfresh {session : Session} (h : Session.create name settings = .ok session) : Session.Tidy session := by
    unfold Session.create at h
    cases hvalid : settings.validate with
    | error e =>
      rw [hvalid] at h
      cases h
    | ok valid =>
      rw [hvalid] at h
      obtain rfl := Except.ok.inj h
      exact Session.tidy_start name valid
  intro g hg
  unfold insert
  rw [ends_bind, ends_ofExcept]
  split
  · next session hsession =>
    rw [ends_bind, ends_read]
    split
    · rw [ends_bind]
      unfold ends useLine
      dsimp only
      -- the session that is given up is not one of the group
      rcases Session.drop b (g.line ⟨session, link⟩) with ⟨_ | _ | _, l⟩
      · exact ⟨hg.ascending, hg.tidy⟩
      · exact ⟨hg.ascending, hg.tidy⟩
      · exact ⟨hg.ascending, hg.tidy⟩
    · exact hg.put name (l := ⟨session, ⟨link, g.now⟩, g.log⟩) (hfresh hsession)
  · exact hg

theorem Orderly.errand {g g' : SessionGroup (Watched σ)} {r : Outcome Failure Unit} (h : Orderly g)
    {errand : Errand (Watched σ)} (herrand : errand.perform b.watched g = (r, g')) (hreturned : r ≠ .overflow) :
    Orderly g' := by
  cases errand with
  | insert name settings link =>
    have hleft := (orderly_insert (b := b.watched) name settings link g h).left
    rwa [show SessionGroup.insert b.watched name settings link g = (r, g') from herrand] at hleft
  | use name deed =>
    replace herrand : SessionGroup.use name (deed.perform b.watched) g = (r, g') := herrand
    unfold SessionGroup.use at herrand
    cases hm : g.members.get? name with
    | none =>
      rw [hm] at herrand
      obtain ⟨rfl, rfl⟩ := Prod.mk.inj herrand
      exact h
    | some m =>
      rw [hm] at herrand
      dsimp only at herrand
      rcases hdeed : deed.perform b.watched (g.line m) with ⟨r', l⟩
      rw [hdeed] at herrand
      obtain ⟨rfl, rfl⟩ := Prod.mk.inj herrand
      have hl : Session.Tidy l.session := Session.Tidy.deed (l := g.line m) (h.tidy_get? hm) hdeed hreturned
      exact h.put name hl

theorem Reached.orderly {g : SessionGroup (Watched σ)} (h : Reached b g) : Orderly g := by
  induction h with
  | empty now => exact ⟨List.Pairwise.nil, List.forall_mem_nil _⟩
  | act _ errand herrand hreturned ih => exact ih.errand herrand hreturned
  | meanwhile _ hsessions ih => exact ih.of_sessions hsessions

/-! ### Watching does not show -/

def unwatchedMember (m : Member (Watched σ)) : Member σ :=
  ⟨m.session, m.link.link⟩

def unwatched (g : SessionGroup (Watched σ)) : SessionGroup σ :=
  ⟨g.members.map fun p => (p.1, unwatchedMember p.2), g.now, g.log⟩

/-- A group with its sessions on connections that are not watched. -/
def Under (g : SessionGroup σ) (v : SessionGroup (Watched σ)) : Prop :=
  g = v.unwatched

theorem alike_use (name : String) {m : Dialog σ α} {n : Dialog (Watched σ) α}
    (h : Flow.Alike (Line.Alike Watched.Under) m n) : Flow.Alike Under (use name m) (use name n) := by
  rintro _ v rfl
  have hget : v.unwatched.members.get? name = (v.members.get? name).map unwatchedMember := Roster.get?_map _
  unfold use
  rw [hget]
  cases v.members.get? name with
  | none => exact ⟨rfl, rfl⟩
  | some member =>
    have hline : (v.unwatched.line (unwatchedMember member)).Alike Watched.Under (v.line member) :=
      Line.alike_unwatched_iff.2 rfl
    obtain ⟨hr, hl⟩ := h hline
    obtain hl := Line.alike_unwatched_iff.1 hl
    refine ⟨hr, ?_⟩
    dsimp only [Option.map_some]
    rw [hl]
    exact congrArg (SessionGroup.mk · _ _) (Roster.put_map unwatchedMember ⟨_, _⟩)

theorem alike_terminateAll (first : Option Failure) (names : List String) :
    Flow.Alike Under (terminateAll b first names) (terminateAll b.watched first names) := by
  induction names generalizing first with
  | nil => exact .pure _
  | cons name rest ih =>
    refine (alike_use name (Session.alike_terminate b.alike_watched)).attempt.bind fun result => ?_
    cases result with
    | ok u => exact ih _
    | error e =>
      cases first with
      | none => exact ih _
      | some _ => exact (alike_use name (Dialog.alike_record _)).bind fun _ => ih _

theorem alike_close : Flow.Alike Under (close b) (close b.watched) := by
  have hnames : Flow.Alike Under (Flow.read names : GroupWork σ (List String)) (Flow.read names) :=
    .read fun g v h => h ▸ Roster.names_map unwatchedMember
  refine hnames.bind fun names => (alike_terminateAll none names).bind fun first => ?_
  cases first with
  | none => exact .pure _
  | some e => exact .fail _

/-! ### Closing -/

/-- The session of a member is terminated, whatever the clock and the record are then. -/
def Terminates (b : Backend σ) (m : Member (Watched σ)) (failure : Option Failure) (m' : Member (Watched σ)) : Prop :=
  ∃ now log l', Session.Terminates b ⟨m.session, ⟨m.link, now⟩, log⟩ failure l' ∧ m' = ⟨l'.session, l'.world.link⟩

/-- A call ran out of the calendar when the session of a member was terminated. -/
def RunsOutOf (b : Backend σ) (m : Member (Watched σ)) : Prop :=
  ∃ now log l', Session.terminate b.watched ⟨m.session, ⟨m.link, now⟩, log⟩ = (.overflow, l') ∧
    RunsOut m.link.seen l'.world

/-- The sessions of the names are terminated, the others are left alone. -/
structure Ends (b : Backend σ) (g : SessionGroup (Watched σ)) (names : List String)
    (failure : String → Option Failure) (g' : SessionGroup (Watched σ)) : Prop where
  sameNames : g'.names = g.names
  ended : ∀ name ∈ names, ∀ m, g.members.get? name = some m →
    ∃ m', g'.members.get? name = some m' ∧ Terminates b m (failure name) m'
  others : ∀ name, name ∉ names → g'.members.get? name = g.members.get? name

theorem ends_terminateAll (first : Option Failure) (names : List String) (hnames : names.Nodup)
    {g : SessionGroup (Watched σ)} (hg : Orderly g) (hmembers : ∀ name ∈ names, (g.members.get? name).isSome) :
    ends (terminateAll b.watched first names)
      (fun e g' => ∃ failure, Ends b g names failure g' ∧ e = first.or (names.findSome? failure))
      (fun _ _ => False)
      (fun _ => ∃ name ∈ names, ∃ m, g.members.get? name = some m ∧ RunsOutOf b m) g := by
  induction names generalizing first g with
  | nil =>
    refine ⟨fun _ => none, ⟨rfl, List.forall_mem_nil _, fun _ _ => rfl⟩, ?_⟩
    exact (Option.or_none).symm
  | cons name rest ih =>
    obtain ⟨hnew, hrest⟩ := List.nodup_cons.1 hnames
    obtain ⟨m, hm⟩ := Option.isSome_iff_exists.1 (hmembers name List.mem_cons_self)
    -- what is left of the group when this session has ended
    have hthen (e : Option Failure) (l' : Line (Watched σ)) (hl' : Session.Terminates b (g.line m) e l')
        (log : List Event) (first' : Option Failure) (hfirst : first' = first.or e) :
        ends (terminateAll b.watched first' rest)
          (fun e g' => ∃ failure, Ends b g (name :: rest) failure g' ∧
            e = first.or ((name :: rest).findSome? failure))
          (fun _ _ => False)
          (fun _ => ∃ name' ∈ name :: rest, ∃ m, g.members.get? name' = some m ∧ RunsOutOf b m)
          (g.put name { l' with log }) := by
      have hother {other : String} (hne : other ≠ name) :
          (g.put name { l' with log }).members.get? other = g.members.get? other :=
        Roster.get?_put_of_ne hne
      have hne {other : String} (hmem : other ∈ rest) : other ≠ name := fun heq => hnew (heq ▸ hmem)
      have horderly : Orderly (g.put name { l' with log }) := hg.put name (.of_over hl'.ended.session)
      refine ends_mono (ih first' hrest horderly fun other hmem => ?_) (fun e' g' hg' => ?_) (fun _ _ h => h)
        fun _ hout => ?_
      · rw [hother (hne hmem)]
        exact hmembers other (List.mem_cons_of_mem _ hmem)
      · obtain ⟨failure, hends, he'⟩ := hg'
        refine ⟨Function.update failure name e, ⟨?_, ?_, ?_⟩, ?_⟩
        · exact hends.sameNames.trans (hg.ascending.names_put hm _)
        · refine List.forall_mem_cons.2 ⟨fun m' hm' => ?_, fun other hmem m' hm' => ?_⟩
          · obtain rfl := Option.some.inj (hm.symm.trans hm')
            refine ⟨⟨l'.session, l'.world.link⟩, ?_, ?_⟩
            · rw [hends.others name hnew]
              exact Roster.get?_put_self
            · rw [Function.update_self]
              exact ⟨g.now, g.log, l', hl', rfl⟩
          · rw [Function.update_of_ne (hne hmem)]
            exact hends.ended other hmem m' ((hother (hne hmem)).trans hm')
        · intro other hmem
          rw [hends.others other (mt (List.mem_cons_of_mem _) hmem), hother fun heq => hmem (heq ▸ List.mem_cons_self)]
        · have hlater : rest.findSome? (Function.update failure name e) = rest.findSome? failure := by
            rw [← List.head?_filterMap, ← List.head?_filterMap]
            exact congrArg List.head? (List.filterMap_congr fun other hmem => Function.update_of_ne (hne hmem) _ _)
          rw [he', hfirst, List.findSome?_cons, Function.update_self, hlater, Option.or_assoc]
          cases e <;> rfl
      · obtain ⟨other, hmem, m', hm', hout⟩ := hout
        exact ⟨other, List.mem_cons_of_mem _ hmem, m', (hother (hne hmem)).symm.trans hm', hout⟩
    unfold terminateAll
    rw [ends_bind, ends_attempt, ends_use hm]
    refine ends_mono ((ends_self _ _).and (Session.ends_terminates (hg.tidy_get? hm))) (fun _ l' hl' => ?_) (fun e l' hl' => ?_)
      fun l' hl' => ?_
    · exact hthen none l' hl'.2 l'.log first (Option.or_none).symm
    · cases first with
      | none => exact hthen (some e) l' hl'.2 l'.log (some e) rfl
      | some e' =>
        have hput : (g.put name l').members.get? name = some ⟨l'.session, l'.world.link⟩ := Roster.get?_put_self
        show ends (use name (Dialog.record _) >>= _) _ _ _ _
        rw [ends_bind, ends_use hput, Dialog.record, ends_modify]
        have hagain (log : List Event) : (g.put name l').put name { l' with log } = g.put name { l' with log } :=
          congrArg (SessionGroup.mk · _ _) (Roster.put_put _)
        refine (congrArg (ends _ _ _ _) (hagain _)).mpr ?_
        exact hthen (some e) l' hl'.2 _ (some e') rfl
    · exact ⟨name, List.mem_cons_self, m, hm, g.now, g.log, l', hl'.1, hl'.2⟩

theorem names_ascending {g : SessionGroup σ} (hg : Orderly g) : g.names.Pairwise (· < ·) :=
  List.pairwise_map.2 hg.ascending

theorem findSome?_eq_some_iff_least {names : List String} (hnames : names.Pairwise (· < ·))
    {failure : String → Option Failure} {e : Failure} : names.findSome? failure = some e ↔
      ∃ name ∈ names, failure name = some e ∧ ∀ other ∈ names, other < name → failure other = none := by
  rw [List.findSome?_eq_some_iff]
  constructor
  · rintro ⟨before, name, after, rfl, he, hnone⟩
    refine ⟨name, List.mem_append_right _ List.mem_cons_self, he, fun other hmem hlt => ?_⟩
    rcases List.mem_append.1 hmem with hmem | hmem
    · exact hnone other hmem
    · have hafter := (List.pairwise_cons.1 (List.pairwise_append.1 hnames).2.1).1
      rcases List.mem_cons.1 hmem with rfl | hmem
      · exact absurd hlt (lt_irrefl _)
      · exact absurd hlt (hafter other hmem).asymm
  · rintro ⟨name, hmem, he, hleast⟩
    obtain ⟨before, after, rfl⟩ := List.append_of_mem hmem
    refine ⟨before, name, after, rfl, he, fun other hother => ?_⟩
    have hlt : other < name := (List.pairwise_append.1 hnames).2.2 other hother name List.mem_cons_self
    exact hleast other (List.mem_append_left _ hother) hlt

/-- How closing a group ends: each of its sessions is terminated, and the failure is that of the first one, in
the order of the names, that has one. -/
theorem ends_close {g : SessionGroup (Watched σ)} (hg : Orderly g) :
    ends (close b.watched)
      (fun _ g' => ∃ failure, Ends b g g.names failure g' ∧ g.names.findSome? failure = none)
      (fun e g' => ∃ failure, Ends b g g.names failure g' ∧ g.names.findSome? failure = some e)
      (fun _ => ∃ name ∈ g.names, ∃ m, g.members.get? name = some m ∧ RunsOutOf b m) g := by
  have hnames : g.names.Nodup := (names_ascending hg).imp fun h => ne_of_lt h
  unfold close
  rw [ends_bind, ends_read, ends_bind]
  refine ends_mono (ends_terminateAll none g.names hnames hg fun _ => Roster.isSome_get?_of_mem_names)
    (fun first g' hg' => ?_) (fun _ _ h => h.elim) fun _ h => h
  obtain ⟨failure, hends, hfirst⟩ := hg'
  cases first with
  | none => exact ⟨failure, hends, hfirst.symm⟩
  | some e => exact ⟨failure, hends, hfirst.symm⟩

end SessionGroup

/-- A session is reached and terminated, and it is watched, which changes nothing. Unless a call runs out of the
calendar, ROLLBACK is tried if a transaction runs, and each open handle is closed once, whatever fails. No
handle and no transaction are left, and terminating fails if one of these steps does: with the failure of the
rollback, if that is one of them. Closing a group that is reached does this with each of its sessions, whichever
of them fail, and fails as the one among these does that has the least name. -/
theorem terminations_total (b : Backend σ) :
    (∀ {l l' : Line (Watched σ)} {r : Outcome Failure Unit}, Session.Reached b l →
      Session.terminate b.watched l = (r, l') →
      (r = .overflow ∧ RunsOut l.world.link.seen l'.world) ∨
        ∃ failure, r = .ofCause failure ∧ Session.Terminates b l failure l') ∧
    ∀ {g g' : SessionGroup (Watched σ)} {r : Outcome Failure Unit}, SessionGroup.Reached b g →
      SessionGroup.close b.watched g = (r, g') →
      SessionGroup.close b g.unwatched = (r, g'.unwatched) ∧
      ((r = .overflow ∧ ∃ name ∈ g.names, ∃ m, g.members.get? name = some m ∧ SessionGroup.RunsOutOf b m) ∨
        ∃ failure : String → Option Failure, SessionGroup.Ends b g g.names failure g' ∧
          (r = .done () ↔ ∀ name ∈ g.names, failure name = none) ∧
          ∀ e, r = .failed e ↔ ∃ name ∈ g.names, failure name = some e ∧
            ∀ other ∈ g.names, other < name → failure other = none) := by
  refine ⟨fun {l l' r} hl h => ?_, fun {g g' r} hg h => ⟨?_, ?_⟩⟩
  · have hends := Session.ends_terminates (b := b) hl.tidy
    unfold Flow.ends at hends
    rw [h] at hends
    cases r with
    | done u => exact .inr ⟨none, rfl, hends⟩
    | failed e => exact .inr ⟨some e, rfl, hends⟩
    | overflow => exact .inl ⟨rfl, hends⟩
  · have halike := SessionGroup.alike_close (b := b) (s := g.unwatched) (t := g) rfl
    rw [h] at halike
    exact Prod.ext halike.1 halike.2
  · have hascending := SessionGroup.names_ascending hg.orderly
    have hends := SessionGroup.ends_close (b := b) hg.orderly
    unfold Flow.ends at hends
    rw [h] at hends
    cases r with
    | done u =>
      obtain ⟨failure, hends, hnone⟩ := hends
      have hall := List.findSome?_eq_none_iff.1 hnone
      refine .inr ⟨failure, hends, ⟨fun _ => hall, fun _ => rfl⟩, fun e => ⟨nofun, ?_⟩⟩
      rintro ⟨name, hmem, he, -⟩
      exact absurd ((hall name hmem).symm.trans he) (Option.some_ne_none e).symm
    | failed e =>
      obtain ⟨failure, hends, hsome⟩ := hends
      refine .inr ⟨failure, hends, ⟨nofun, fun hall => ?_⟩, fun e' => ?_⟩
      · exact absurd (hsome.symm.trans (List.findSome?_eq_none_iff.2 hall)) (Option.some_ne_none e)
      · rw [← SessionGroup.findSome?_eq_some_iff_least hascending, hsome, Option.some_inj, Outcome.failed.injEq]
    | overflow => exact .inl ⟨rfl, hends⟩

/-- A connection on which closing handles fails. -/
def brokenLink : Watched Script :=
  ⟨{ Script.empty with closeFault := some ⟨some "08006", 0, "gone"⟩ }, []⟩

/-- A session with a transaction and one open statement. -/
def busySession (name : String) : Session :=
  { Session.start name .default with handles := [1], nextHandle := 2, transaction := some none }

def brokenLine : Line (Watched Script) :=
  ⟨busySession "main", ⟨brokenLink, .epoch⟩, []⟩

def brokenGroup : SessionGroup (Watched Script) :=
  ⟨[("audit", ⟨busySession "audit", brokenLink⟩), ("orders", ⟨.start "orders" .default, brokenLink⟩)], .epoch, []⟩

/-- Creates the statement whose handle stays open. -/
def openDeed : Session.Deed :=
  .create ⟨"SELECT k FROM t", '\\', "SELECT k FROM t".toList.map .sql⟩ none

theorem reached_brokenLine : Session.Reached Script.streaming brokenLine := by
  have hstart : Session.Reached Script.streaming (freshLine .default .empty) := .start _ _ _ _
  have hbegun : Session.Reached Script.streaming
      { freshLine .default .empty with
        session := { Session.start "main" .default with nextHandle := 1, transaction := some none } } :=
    .meanwhile (hstart.act (r := .done ()) (.begin none) rfl nofun) rfl
  exact .meanwhile (hbegun.act (r := .done ()) openDeed rfl nofun) rfl

theorem reached_brokenGroup : SessionGroup.Reached Script.streaming brokenGroup := by
  have hfirst : SessionGroup.Reached Script.streaming
      ⟨[("orders", ⟨.start "orders" .default, ⟨.empty, []⟩⟩)], .epoch, []⟩ :=
    .act (r := .done ()) (.empty _) (.insert "orders" .default ⟨.empty, []⟩) rfl nofun
  have hboth : SessionGroup.Reached Script.streaming
      ⟨[("audit", ⟨.start "audit" .default, ⟨.empty, []⟩⟩), ("orders", ⟨.start "orders" .default, ⟨.empty, []⟩⟩)],
        .epoch, []⟩ :=
    .act (r := .done ()) hfirst (.insert "audit" .default ⟨.empty, []⟩) rfl nofun
  have hbegun : SessionGroup.Reached Script.streaming
      ⟨[("audit", ⟨{ Session.start "audit" .default with nextHandle := 1, transaction := some none }, ⟨.empty, []⟩⟩),
        ("orders", ⟨.start "orders" .default, ⟨.empty, []⟩⟩)], .epoch, []⟩ :=
    .meanwhile (hboth.act (r := .done ()) (.use "audit" (.begin none)) rfl nofun) rfl
  exact .meanwhile (hbegun.act (r := .done ()) (.use "audit" openDeed) rfl nofun) rfl

/-- A session with a transaction and an open statement is terminated, alone and as one of two in a group. Closing
handles fails, that of the rollback as well. -/
theorem terminations_total_of_fault : ∃ l' e g' e' m',
    Session.terminate Script.streaming.watched brokenLine = (.failed e, l') ∧
    Session.Terminates Script.streaming brokenLine (some e) l' ∧
    SessionGroup.close Script.streaming.watched brokenGroup = (.failed e', g') ∧
    g'.members.get? "audit" = some m' ∧ Session.Over m'.session := by
  obtain ⟨hsessions, hgroups⟩ := terminations_total Script.streaming
  obtain ⟨l', e, g', e', hterminate, hclose⟩ : ∃ l' e g' e',
      Session.terminate Script.streaming.watched brokenLine = (.failed e, l') ∧
      SessionGroup.close Script.streaming.watched brokenGroup = (.failed e', g') :=
    ⟨_, _, _, _, rfl, rfl⟩
  obtain ⟨hoverflow, -⟩ | ⟨failure, hfailure, hterminates⟩ := hsessions reached_brokenLine hterminate
  · cases hoverflow
  obtain ⟨-, ⟨hoverflow, -⟩ | ⟨failures, hends, -, -⟩⟩ := hgroups reached_brokenGroup hclose
  · cases hoverflow
  obtain ⟨m', hm', now, log, l'', hterminates', rfl⟩ := hends.ended "audit" List.mem_cons_self _ rfl
  have he : failure = some e := by
    cases failure with
    | none => cases hfailure
    | some e'' => exact congrArg some (Outcome.failed.inj hfailure).symm
  exact ⟨l', e, g', e', _, hterminate, he ▸ hterminates, hclose, hm', hterminates'.ended.session⟩

end NamedSql
