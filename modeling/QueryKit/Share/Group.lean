/-!
# Reads in flight

Identical reads that run at one time are run once: the first caller of a key leads, the others
follow it and take its result.

- `ShareGroup.arrive`: a caller of a key gets a ticket. It leads a new flight, or follows the one
  that is under way.
- `ShareGroup.land`, `ShareGroup.abandon`: the leader finishes with a result, or goes away.
- `ShareGroup.await`: what a follower sees of its flight. A follower of an abandoned flight has to
  read for itself.
-/

namespace QueryKit

/-- How far the read of a leader has come. -/
inductive Flight (ρ : Type) where
  | running
  | landed (result : ρ)
  /-- The leader went away before it had a result. -/
  | abandoned
deriving DecidableEq, Repr

/-- The part that a caller plays in a flight. -/
inductive Ticket where
  | leader (flight : Nat)
  | follower (flight : Nat)
deriving DecidableEq, Repr

/-- The flights of a connection. -/
structure ShareGroup (ρ : Type) where
  /-- The keys that are being read, with the numbers of their flights. -/
  inflight : List (String × Nat)
  /-- Every flight so far, in the order of departure. -/
  flights : List (Flight ρ)

namespace ShareGroup

variable {ρ : Type}

def empty : ShareGroup ρ :=
  ⟨[], []⟩

/-- Join the flight of a key, or lead a new one. -/
def arrive (g : ShareGroup ρ) (key : String) : Ticket × ShareGroup ρ :=
  match g.inflight.lookup key with
  | some flight => (.follower flight, g)
  | none =>
    (.leader g.flights.length,
      ⟨g.inflight ++ [(key, g.flights.length)], g.flights ++ [.running]⟩)

/-- End the flight of a key. -/
def conclude (g : ShareGroup ρ) (key : String) (flight : Nat) (ending : Flight ρ) : ShareGroup ρ :=
  ⟨g.inflight.filter fun e => e.1 != key, g.flights.set flight ending⟩

/-- The leader of a key has a result. -/
def land (g : ShareGroup ρ) (key : String) (flight : Nat) (result : ρ) : ShareGroup ρ :=
  g.conclude key flight (.landed result)

/-- The leader of a key goes away. -/
def abandon (g : ShareGroup ρ) (key : String) (flight : Nat) : ShareGroup ρ :=
  g.conclude key flight .abandoned

/-- What a follower sees of a flight. -/
def await (g : ShareGroup ρ) (flight : Nat) : Flight ρ :=
  g.flights.getD flight .running

end ShareGroup

end QueryKit
