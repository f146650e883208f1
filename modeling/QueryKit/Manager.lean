import QueryKit.Error

/-!
# Named connections

- `Manager`: connections under names, in the order of the names.
- `Manager.add`: the first connection of a name stays; later ones are ignored.
-/

namespace QueryKit

/-- Connections under their names. -/
structure Manager (κ : Type) where
  items : List (String × κ)

namespace Manager

variable {κ : Type}

def empty : Manager κ :=
  ⟨[]⟩

/-- The connection of a name. -/
def get? (m : Manager κ) (name : String) : Option κ :=
  m.items.lookup name

def has (m : Manager κ) (name : String) : Bool :=
  (m.get? name).isSome

/-- Insert a name in front of the first one that comes after it. -/
def insertSorted (name : String) (connection : κ) : List (String × κ) → List (String × κ)
  | [] => [(name, connection)]
  | (n, c) :: r =>
    if name < n then (name, connection) :: (n, c) :: r
    else (n, c) :: insertSorted name connection r

/-- Register a connection, unless the name is taken. -/
def add (m : Manager κ) (name : String) (connection : κ) : Manager κ :=
  if m.has name then m else ⟨insertSorted name connection m.items⟩

/-- The connection of a name, or the failure to find it. -/
def require (m : Manager κ) (name : String) : Result κ :=
  match m.get? name with
  | some connection => .ok connection
  | none => .error (.invalidArgument (.unregistered name))

/-- The registered names in order. -/
def names (m : Manager κ) : List String :=
  m.items.map (·.1)

end Manager

end QueryKit
