import QueryKit.Session.Links

/-!
# Transactions

The outermost level of a transaction is one of the server's; each further level is a savepoint.

- `Client.control`: a statement that opens or ends a level. When it fails the connection is closed
  and no transaction is left.
- `Client.begin`, `Client.commit`, `Client.rollBack`: one level up, and one level down.
- `Client.transaction`: a step inside a level of its own, which ends with the step.
-/

namespace QueryKit.Client

variable {σ α : Type} (c : Client σ)

/-- The name of the savepoint of a level. -/
def savepointName (level : Nat) : String :=
  "LEVEL" ++ Nat.repr level

/-- Send a statement that opens or ends a level. -/
def control (sql : String) : Run σ Unit := do
  match ← c.mainLink.attempt with
  | .error e =>
    Run.modifySession Session.resetTransaction
    Run.fail e
  | .ok link =>
    match ← (Run.send link sql [] (c.backend.execute link sql [])).attempt with
    | .ok _ => return ()
    | .error e =>
      discardMaster
      Run.fail (e.withStatement sql)

/-- Whether the isolation level is set after the transaction has begun, not before. -/
def isolatesAfterBegin (d : Dialect) : Bool :=
  match d with
  | .postgres => true
  | _ => false

/-- The statements that begin a transaction. -/
def beginStatements (d : Dialect) (isolation : Option IsolationLevel) : Result (List String) := do
  match isolation with
  | none => return [d.beginSql]
  | some level =>
    let sql ← d.isolationSql level
    return if isolatesAfterBegin d then [d.beginSql, sql] else [sql, d.beginSql]

/-- Send statements in turn. -/
def controlAll : List String → Run σ Unit
  | [] => return ()
  | sql :: r => do
    c.control sql
    controlAll r

/-- Begin the outermost level. -/
def beginOutermost (isolation : Option IsolationLevel) : Run σ Unit := do
  let statements ← Run.ofResult (beginStatements c.connection.dialect isolation)
  Run.log .debug
    (match isolation with
      | some level => "Begin transaction with isolation level " ++ level.sql
      | none => "Begin transaction")
  c.controlAll statements
  Run.modifySession fun s => { s with level := 1, isolation }

/-- Begin an inner level. -/
def beginSavepoint (level : Nat) : Run σ Unit := do
  if c.connection.supportsSavepoint then
    Run.log .debug ("Set savepoint " ++ Nat.repr level)
    c.control ("SAVEPOINT " ++ savepointName level)
    Run.modifySession fun s => { s with level := s.level + 1 }
  else
    Run.log .info "Transaction not started: nested transaction not supported"
    Run.fail (.unsupported .nestedTransaction)

/-- Begin a transaction, or a level inside the one that is open. -/
def begin (isolation : Option IsolationLevel) : Run σ Unit := do
  let level := (← Run.session).level
  if level = 0 then c.beginOutermost isolation else c.beginSavepoint level

/-- Go down to a level, and return it. -/
def leaveLevel : Run σ Nat := do
  Run.modifySession fun s => { s with level := s.level - 1 }
  return (← Run.session).level

/-- End the outermost level with a statement. -/
def endOutermost (message sql : String) : Run σ Unit := do
  Run.log .debug message
  Run.modifySession fun s => { s with isolation := none }
  c.control sql
  c.release true

/-- Commit the innermost level. -/
def commit : Run σ Unit := do
  if (← Run.session).isActive then
    let level ← leaveLevel
    if level = 0 then c.endOutermost "Commit transaction" "COMMIT"
    else if c.connection.supportsSavepoint then
      Run.log .debug ("Release savepoint " ++ Nat.repr level)
      c.control ("RELEASE SAVEPOINT " ++ savepointName level)
    else Run.log .info "Transaction not committed: nested transaction not supported"
  else
    c.release true
    Run.fail (.invalidCall .commitInactive)

/-- Roll back the innermost level. Without a transaction the connections are given back. -/
def rollBack : Run σ Unit := do
  if (← Run.session).isActive then
    let level ← leaveLevel
    if level = 0 then c.endOutermost "Roll back transaction" "ROLLBACK"
    else if c.connection.supportsSavepoint then
      Run.log .debug ("Roll back to savepoint " ++ Nat.repr level)
      c.control ("ROLLBACK TO SAVEPOINT " ++ savepointName level)
    else Run.log .info "Transaction not rolled back: nested transaction not supported"
  else c.release true

/-- Change the isolation level of the open transaction. -/
def setIsolationLevel (isolation : IsolationLevel) : Run σ Unit := do
  if (← Run.session).isActive then
    Run.log .debug ("Setting transaction isolation level to " ++ isolation.sql)
    let sql ← Run.ofResult (c.connection.dialect.isolationSql isolation)
    c.control sql
  else
    c.release true
    Run.fail (.invalidCall .isolationInactive)

/-- Whether a transaction is open at a level. -/
def isAtLevel (level : Nat) : Run σ Bool := do
  let s ← Run.session
  return s.isActive && s.level == level

/-- Roll back a level if it is the innermost one. A failure is logged and not passed on. -/
def rollBackLevel (level : Nat) : Run σ Unit := do
  if ← isAtLevel level then
    if let .error e ← c.rollBack.attempt then
      Run.log .error e.message

/-- Take a step inside a level of its own. The level is committed if the step ends in a result and
rolled back if it fails, provided that it is the innermost level then. -/
def transaction (isolation : Option IsolationLevel) (x : Run σ α) : Run σ α := do
  c.begin isolation
  let level := (← Run.session).level
  match ← x.attempt with
  | .ok a =>
    if ← isAtLevel level then c.commit
    return a
  | .error e =>
    c.rollBackLevel level
    Run.fail e

end QueryKit.Client
