import QueryKit.Session.Basic

/-!
# Choosing a server

- `Client.isServerDead`: whether a server failed a while ago and is skipped for now.
- `Client.openFirst`: a connection to the first server of a list that is not skipped and can be
  reached. Those that fail on the way are skipped from then on.
- `Client.openMain`, `Client.openReplica`: a connection for writing, and one for reading if there is
  any.
-/

namespace QueryKit.Client

variable {σ : Type} (c : Client σ)

/-- Whether a server is skipped. A mark whose time has passed is removed. -/
def isServerDead (dsn : String) : Run σ Bool := do
  match (← Run.state).dead.lookup dsn with
  | none => return false
  | some until_ =>
    if (← Run.now) < until_ then return true
    else
      Run.modify fun w => { w with dead := w.dead.filter fun d => d.1 != dsn }
      return false

/-- Skip a server for the time that the settings say. -/
def markServerDead (dsn : String) : Run σ Unit := do
  let until_ := (← Run.now) + c.connection.config.serverRetryInterval * 1000000000
  Run.modify fun w => { w with dead := (dsn, until_) :: w.dead.filter fun d => d.1 != dsn }

/-- Take a connection from a pool. -/
def acquire (pool : Pool) : Run σ Link := do
  Run.ask (c.backend.acquire pool)
  let link : Link := ⟨pool, (← Run.state).nextLink⟩
  Run.modify fun w => { w with nextLink := w.nextLink + 1 }
  Run.note (.acquired link)
  return link

/-- A connection to the first server that is not skipped and can be reached. -/
def openFirst : List Pool → Run σ (Option Link)
  | [] => return none
  | pool :: pools => do
    if ← isServerDead pool.dsn then openFirst pools
    else
      match ← (c.acquire pool).attempt with
      | .ok link => return some link
      | .error e =>
        Run.log .warn ("Connection (" ++ pool.dsn ++ ") failed: " ++ e.message)
        c.markServerDead pool.dsn
        openFirst pools

/-- The servers of one rank in the order in which they are tried. -/
def arranged (shuffled : Bool) (pools : List Pool) : Run σ (List Pool) :=
  if shuffled then Run.observe (c.backend.arrange pools) else return pools

/-- A connection for writing: to a master, or to the primary server if there are no masters. -/
def openMain (attempt : Nat) : Run σ Link := do
  if c.connection.masters ≠ [] then
    match ← c.openFirst (← c.arranged c.connection.config.shuffleMasters c.connection.masters) with
    | some link => return link
    | none => Run.fail (.connectionUnavailable .noMaster)
  else
    match c.connection.primary with
    | none => Run.fail (.invalidArgument .noDsn)
    | some pool =>
      let link ← c.acquire pool
      if attempt = 0 then
        Run.log .info ("Opening DB connection: " ++ c.connection.shortDsn)
      return link

/-- A connection for reading, unless there are no replicas or none can be reached. -/
def openReplica : Run σ (Option Link) := do
  if c.connection.config.enableSlaves ∧ c.connection.replicas ≠ [] then
    c.openFirst (← c.arranged true c.connection.replicas)
  else return none

end QueryKit.Client
