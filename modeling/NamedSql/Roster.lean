/-!
# Rosters

Things under names, in the ascending order of the names, each name at most once.
-/

namespace NamedSql

abbrev Roster (α : Type) := List (String × α)

namespace Roster

variable {α : Type}

def names (r : Roster α) : List String :=
  r.map (·.1)

def get? (r : Roster α) (name : String) : Option α :=
  r.lookup name

def has (r : Roster α) (name : String) : Bool :=
  r.any (·.1 == name)

/-- Enters a thing under its name, in place of one that is there. -/
def put (r : Roster α) (name : String) (a : α) : Roster α :=
  match r with
  | [] => [(name, a)]
  | (other, o) :: rest =>
    if name < other then (name, a) :: (other, o) :: rest
    else if name = other then (name, a) :: rest
    else (other, o) :: put rest name a

def erase (r : Roster α) (name : String) : Roster α :=
  r.filter (·.1 != name)

end Roster

end NamedSql
