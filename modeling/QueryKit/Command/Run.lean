import QueryKit.Command.Basic
import QueryKit.Session.Schema
import QueryKit.Session.Transaction
import QueryKit.Statement.Kind

/-!
# Running commands

- `Client.runCommand`: sends a prepared statement, again and again as the retry handler says. Reads go
  to the connection for reads. A connection is never replaced inside a transaction.
- `Client.execute`: a statement that returns no rows.

An operation on a command returns its result, which may be a failure, with the command as it is
afterwards.
-/

namespace QueryKit.Client

variable {σ α : Type} (c : Client σ)

/-- Log a statement, if it is short enough. -/
def logQuery (message : String) : Run σ Unit := do
  if c.connection.config.logs message then
    Run.log .info (c.connection.shortDsn ++ "\n" ++ message)

/-- What follows an attempt that failed. Faults of the statement itself are final, and so is every
failure that would need a new connection inside a transaction. -/
def retryAction (active : Bool) (e : Error) (attempt : Nat) : RetryAction × Nat :=
  match c.connection.retry with
  | none => (.no, 0)
  | some handler =>
    if e.isCompileError then (.no, 0)
    else if c.connection.config.maxRetryCeiling.any fun ceiling => decide (ceiling ≤ attempt) then
      (.no, 0)
    else
      match handler.action attempt e with
      | .reconnect => if active then (.no, 0) else (.reconnect, handler.backoff attempt)
      | action => (action, handler.backoff attempt)

/-- Send a statement on the connection for it. -/
def sendPrepared (read : Bool) (call : Link → String → List Value → σ → Outcome α × σ)
    (p : Prepared) : Run σ α := do
  let link ← c.linkFor read
  Run.send link p.sql p.values (call link p.sql p.values)

/-- Repeat a step as the retry handler says, at most `patience` times, counting attempts from
`attempt`. The second part of the answer tells whether the prepared form is still good. -/
def retrying (rawSql : String) (x : Run σ α) : Nat → Nat → Run σ (Result α × Bool)
  | 0, _ => Run.cancel
  | patience + 1, attempt => do
    match ← x.attempt with
    | .ok a => return (.ok a, true)
    | .error e =>
      let e := e.withStatement rawSql
      let (action, pause) := c.retryAction (← Run.session).isActive e attempt
      match action with
      | .no => return (.error e, false)
      | .retry =>
        Run.sleep pause
        Run.log .debug
          ("Retrying statement, attempt " ++ Nat.repr attempt ++ ": " ++ e.message)
        retrying rawSql x patience (attempt + 1)
      | .reconnect =>
        Run.sleep pause
        match ← (c.reconnect attempt).attempt with
        | .ok () => retrying rawSql x patience (attempt + 1)
        | .error failure => return (.error failure, true)

/-- Prepare a command and send it. -/
def runCommand (cmd : Command) (rawSql : String)
    (call : Link → String → List Value → σ → Outcome α × σ) : Run σ (Result α × Command) := do
  match cmd.preparation c.connection with
  | .error e => return (.error e, cmd)
  | .ok p =>
    let read := isReadStatement cmd.sql
    let (result, good) ← c.retrying rawSql (c.sendPrepared read call p) c.patience 1
    return (result, { cmd with prepared := if good then some p else none })

/-- What a statement leaves behind when it has run: the id it made, and the schema it changed. -/
def settle (cmd : Command) (executed : Executed) : Run σ Unit := do
  Run.modifySession fun s => { s with lastInsertId := executed.insertId.or s.lastInsertId }
  if let some table := cmd.refreshTable then
    c.refreshTableSchema table
  c.release false

/-- Run a statement that returns no rows; the answer is the number of rows it affected. An empty
statement touches no connection. -/
def execute (cmd : Command) : Run σ (Result Nat × Command) := do
  let raw := cmd.rawSql c.connection
  c.logQuery raw
  if cmd.sql = "" then return (.ok 0, cmd)
  else
    let (result, cmd) ← c.runCommand cmd raw c.backend.execute
    match result with
    | .error e =>
      c.release false
      return (.error e, cmd)
    | .ok executed =>
      c.settle cmd executed
      return (.ok executed.affected, cmd)

end QueryKit.Client
