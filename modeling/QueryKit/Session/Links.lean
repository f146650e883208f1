import QueryKit.Session.Servers

/-!
# The connections of a session

- `Client.mainLink`, `Client.linkFor`: the connection for a statement. Outside transactions reads go to
  a replica if there is one; everything else goes to a master.
- `Client.release`, `Client.reconnect`, `Client.close`: connections go back to their pools, are
  replaced, or are closed for good.
- `Client.useMaster`: a step whose reads go to the master too.
- `Client.drop`: the end of a session. A connection with an open transaction is never given back.
-/

namespace QueryKit.Client

variable {σ α : Type} (c : Client σ)

/-- The master connection, opened if there is none. -/
def mainLinkAt (attempt : Nat) : Run σ Link := do
  match (← Run.session).master with
  | some link => return link
  | none =>
    let link ← c.openMain attempt
    Run.modifySession fun s => { s with master := some link }
    return link

def mainLink : Run σ Link :=
  c.mainLinkAt 0

/-- The connection for a statement. -/
def linkFor (read : Bool) : Run σ Link := do
  let s ← Run.session
  if !read || s.isActive || !s.replicasEnabled || s.replicasDown then c.mainLink
  else
    match s.replica with
    | some link => return link
    | none =>
      match ← c.openReplica with
      | some link =>
        Run.modifySession fun s => { s with replica := some link }
        return link
      | none =>
        Run.modifySession fun s => { s with replicasDown := true }
        c.mainLink

/-- Give the master connection back to its pool. -/
def releaseMaster : Run σ Unit := do
  if let some link := (← Run.session).master then
    Run.modifySession fun s => { s with master := none }
    Run.note (.released link)

/-- Give the replica connection back to its pool. -/
def releaseReplica : Run σ Unit := do
  if let some link := (← Run.session).replica then
    Run.modifySession fun s => { s with replica := none }
    Run.note (.released link)

/-- Close the master connection for good. -/
def dropMaster : Run σ Unit := do
  if let some link := (← Run.session).master then
    Run.modifySession fun s => { s with master := none }
    Run.note (.discarded link)

/-- Close the replica connection for good. -/
def dropReplica : Run σ Unit := do
  if let some link := (← Run.session).replica then
    Run.modifySession fun s => { s with replica := none }
    Run.note (.discarded link)

/-- Close the master connection and forget the transaction that was open on it. -/
def discardMaster : Run σ Unit := do
  dropMaster
  Run.modifySession Session.resetTransaction

/-- Give the connections back to their pools. Nothing happens in a transaction, nor, unless forced,
when the settings say that connections are kept. -/
def release (force : Bool) : Run σ Unit := do
  let s ← Run.session
  if !s.isActive && (force || c.connection.config.autoRelease) then
    releaseMaster
    releaseReplica
    Run.modifySession fun s => { s with replicasDown := false }

/-- Close the connections for good and open a new master connection. -/
def reconnect (attempt : Nat) : Run σ Unit := do
  dropMaster
  dropReplica
  Run.log .warn
    ("The " ++ Nat.repr attempt ++ " times to Reconnect DB connection: " ++ c.connection.shortDsn)
  let _ ← c.mainLinkAt attempt

/-- Close the connections for good and forget the transaction. -/
def close : Run σ Unit := do
  let s ← Run.session
  if s.master.isSome || s.replica.isSome then
    Run.log .warn ("Closing DB connection: " ++ c.connection.shortDsn)
  discardMaster
  dropReplica
  Run.modifySession fun s => { s with replicasDown := false }

/-- Take a step with replicas switched off. -/
def useMaster (x : Run σ α) : Run σ α := do
  let enabled := (← Run.session).replicasEnabled
  Run.modifySession fun s => { s with replicasEnabled := false }
  let result ← x.attempt
  Run.modifySession fun s => { s with replicasEnabled := enabled }
  Run.ofResult result

/-- End a session: an open transaction is closed together with its connection. -/
def drop : Run σ Unit := do
  if (← Run.session).isActive then c.close else c.release true

/-- End a session and begin a new one on the same connection. -/
def renew : Run σ Unit := do
  c.drop
  Run.modifySession fun _ => .ofConnection c.connection

end QueryKit.Client
