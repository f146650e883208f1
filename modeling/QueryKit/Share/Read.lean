import QueryKit.Query.Keyed
import QueryKit.Share.Group

/-!
# Callers of a share group

- `SharedRead`: a call for a key, with the result that its own fetch would have.
- `ShareBoard`: the calls of several callers and the group that they share. A call does nothing until
  it is polled; each operation of the board is one step that no other interrupts.
-/

namespace QueryKit

/-- How far a call has come. -/
inductive ReadStage (ρ : Type) where
  /-- Not polled yet. -/
  | idle
  | leading (flight : Nat)
  | following (flight : Nat)
  /-- Runs its own fetch, because the leader it followed went away. -/
  | alone
  | done (result : ρ)
deriving DecidableEq, Repr

/-- A call for a key. -/
structure SharedRead (ρ : Type) where
  key : String
  stage : ReadStage ρ
  /-- What the fetch of this call returns, once that is known. -/
  supplied : Option ρ

/-- Calls and the group that they share. -/
structure ShareBoard (ρ : Type) where
  group : ShareGroup ρ
  reads : List (String × SharedRead ρ)
  /-- The number of fetches that were started. -/
  fetches : Nat

namespace ShareBoard

variable {ρ : Type}

def empty : ShareBoard ρ :=
  ⟨.empty, [], 0⟩

/-- The result of a call. -/
def outcome (r : SharedRead ρ) : Option ρ :=
  match r.stage with
  | .done result => some result
  | _ => none

/-- Replace the state of a call. -/
def put (b : ShareBoard ρ) (id : String) (r : SharedRead ρ) : ShareBoard ρ :=
  { b with reads := putKeyed id r b.reads }

/-- The fetch of a leader goes on: with its result the flight lands. -/
def lead (b : ShareBoard ρ) (id : String) (r : SharedRead ρ) (flight : Nat) : ShareBoard ρ :=
  match r.supplied with
  | some result =>
    { b with group := b.group.land r.key flight result }.put id { r with stage := .done result }
  | none => b.put id { r with stage := .leading flight }

/-- The fetch of a call without a leader goes on. -/
def readAlone (b : ShareBoard ρ) (id : String) (r : SharedRead ρ) : ShareBoard ρ :=
  match r.supplied with
  | some result => b.put id { r with stage := .done result }
  | none => b.put id { r with stage := .alone }

/-- A follower looks at its flight. -/
def follow (b : ShareBoard ρ) (id : String) (r : SharedRead ρ) (flight : Nat) : ShareBoard ρ :=
  match b.group.await flight with
  | .running => b.put id { r with stage := .following flight }
  | .landed result => b.put id { r with stage := .done result }
  | .abandoned => { b with fetches := b.fetches + 1 }.readAlone id r

/-- Let a call go on as far as it can. -/
def pollRead (b : ShareBoard ρ) (id : String) (r : SharedRead ρ) : ShareBoard ρ :=
  match r.stage with
  | .idle =>
    match b.group.arrive r.key with
    | (.leader flight, group) => { b with group, fetches := b.fetches + 1 }.lead id r flight
    | (.follower flight, group) => { b with group }.follow id r flight
  | .leading flight => b.lead id r flight
  | .following flight => b.follow id r flight
  | .alone => b.readAlone id r
  | .done _ => b

/-- Poll a call. -/
def poll (b : ShareBoard ρ) (id : String) : ShareBoard ρ :=
  match b.reads.lookup id with
  | some r => b.pollRead id r
  | none => b

/-- Give the result of the fetch of a call; only the first one counts. -/
def supply (b : ShareBoard ρ) (id : String) (result : ρ) : ShareBoard ρ :=
  match b.reads.lookup id with
  | some r => b.put id { r with supplied := r.supplied.or (some result) }
  | none => b

/-- A caller goes away; a leader that was under way leaves its followers alone. -/
def drop (b : ShareBoard ρ) (id : String) : ShareBoard ρ :=
  match b.reads.lookup id with
  | some r =>
    let reads := b.reads.filter fun e => e.1 != id
    match r.stage with
    | .leading flight => { b with reads, group := b.group.abandon r.key flight }
    | _ => { b with reads }
  | none => b

/-- A new call for a key; an earlier call of the same name goes away. -/
def start (b : ShareBoard ρ) (id key : String) : ShareBoard ρ :=
  let b := b.drop id
  { b with reads := b.reads ++ [(id, ⟨key, .idle, none⟩)] }

end ShareBoard

end QueryKit
