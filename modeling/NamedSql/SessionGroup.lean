import NamedSql.Roster
import NamedSql.Statement.Execution

/-!
# Groups of sessions

The sessions of one piece of work, found by their names. They share the clock and the record, and
closing the group terminates them all.
-/

namespace NamedSql

/-- A session of a group with its connection. -/
structure Member (σ : Type) where
  session : Session
  link : σ

structure SessionGroup (σ : Type) where
  members : Roster (Member σ)
  now : Instant
  log : List Event

/-- Work with a group. -/
abbrev GroupWork (σ α : Type) := Flow Failure (SessionGroup σ) α

namespace SessionGroup

variable {σ α : Type} (b : Backend σ)

def empty (now : Instant) : SessionGroup σ :=
  ⟨[], now, []⟩

def names (g : SessionGroup σ) : List String :=
  g.members.names

/-- The line of a member. -/
def line (g : SessionGroup σ) (m : Member σ) : Line σ :=
  ⟨m.session, ⟨m.link, g.now⟩, g.log⟩

/-- The group after work on a line, which may belong to no member. -/
def noteLine (g : SessionGroup σ) (l : Line σ) : SessionGroup σ :=
  { g with now := l.world.now, log := l.log }

/-- Work with a session that is given as a member. -/
def useLine (m : Member σ) (d : Dialog σ α) : GroupWork σ α := fun g =>
  match d (g.line m) with
  | (r, l) => (r, g.noteLine l)

/-- Work with the session of a name. -/
def use (name : String) (d : Dialog σ α) : GroupWork σ α := fun g =>
  match g.members.get? name with
  | none => (.failed (.state (.noSession name)), g)
  | some m =>
    match d (g.line m) with
    | (r, l) =>
      (r, { g.noteLine l with members := g.members.put name ⟨l.session, l.world.link⟩ })

/-- Opens a session on a connection and enters it. If its name is taken it is given up at once. -/
def insert (name : String) (settings : Settings) (link : σ) : GroupWork σ Unit := do
  let session ← Flow.ofExcept (Session.create name settings)
  let taken ← Flow.read fun g => g.members.has name
  if taken then
    useLine ⟨session, link⟩ (Session.drop b)
    Flow.fail (.usage (.sessionExists name))
  else
    Flow.modify fun g => { g with members := g.members.put name ⟨session, link⟩ }

/-- Makes a statement and forgets it, so that its handle stays open until the session ends. -/
def openStatement (name sql : String) : GroupWork σ Unit :=
  use name do
    let s ← Dialog.session
    let template ← Flow.ofExcept (s.settings.parse sql)
    discard <| Statement.create b template none

/-- Terminates sessions one after another; the first failure is kept and later ones are recorded. -/
def terminateAll (first : Option Failure) : List String → GroupWork σ (Option Failure)
  | [] => pure first
  | name :: rest => do
    match ← (use name (Session.terminate b)).attempt with
    | .ok () => terminateAll first rest
    | .error e =>
      match first with
      | none => terminateAll (some e) rest
      | some _ =>
        use name <| Dialog.record ⟨.warn, "failed to terminate connection",
          [("connection", .text name), ("error", .text e.message)]⟩
        terminateAll first rest

/-- Terminates all sessions in the order of their names, whichever of them fail. -/
def close : GroupWork σ Unit := do
  let names ← Flow.read names
  match ← terminateAll b none names with
  | none => pure ()
  | some e => Flow.fail e

/-- Terminates sessions that are given up. -/
def dropAll : List String → GroupWork σ Unit
  | [] => pure ()
  | name :: rest => do
    use name (Session.drop b)
    dropAll rest

/-- Gives up a group. -/
def drop : GroupWork σ Unit := do
  let names ← Flow.read names
  dropAll b names

end SessionGroup

end NamedSql
