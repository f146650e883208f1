import QueryKit.Cache.Memory
import QueryKit.Schema.Cache
import QueryKit.Session.Event
import QueryKit.Share.Group

/-!
# Sessions and the steps they take

- `Backend`: the servers, as functions on a state of theirs. A call may also find no answer before its
  caller goes away.
- `Session`: what one unit of work holds: connections and the level of its transaction.
- `RunState`: a session, what it shares with the other sessions of its connection, the servers and
  the journal.
- `Run α`: a step that changes this state and ends in a result, a failure or a cancellation. What was
  done before a failure or a cancellation stays done.
- `Client`: a connection with the servers behind it; the operations of a session belong to it.
-/

namespace QueryKit

/-- How a step ends. -/
inductive Outcome (α : Type) where
  | done (a : α)
  | failed (e : Error)
  /-- The caller went away while the step was waiting. -/
  | cancelled

def Outcome.ending {α : Type} : Outcome α → Ending
  | done _ => .done
  | failed _ => .failed
  | cancelled => .pending

/-- The answer to a statement that returns no rows. -/
structure Executed where
  affected : Nat
  insertId : Option Int
deriving DecidableEq, Repr

/-- The result of a read. -/
abbrev Rows := Result (List Row)

/-- The servers of a connection. -/
structure Backend (σ : Type) where
  acquire : Pool → σ → Outcome Unit × σ
  fetch : Link → String → List Value → σ → Outcome (List Row) × σ
  execute : Link → String → List Value → σ → Outcome Executed × σ
  tableSchema : Link → String → σ → Outcome (Option TableSchema) × σ
  /-- The order in which servers of one rank are tried. -/
  arrange : List Pool → σ → List Pool × σ
  arrange_perm : ∀ pools s, (arrange pools s).1.Perm pools
  /-- How the read of another caller ends for one who waits for it. -/
  await : Nat → σ → Flight Rows × σ

/-- What one unit of work holds. -/
structure Session where
  master : Option Link
  replica : Option Link
  /-- No replica could be opened; reads go to the master until connections are released. -/
  replicasDown : Bool
  replicasEnabled : Bool
  /-- The id that the last INSERT made. -/
  lastInsertId : Option Int
  /-- 0 without a transaction, 1 in one, and one more for each savepoint. -/
  level : Nat
  isolation : Option IsolationLevel

namespace Session

/-- A session that holds nothing yet. -/
def ofConnection (c : Connection) : Session where
  master := none
  replica := none
  replicasDown := false
  replicasEnabled := c.config.enableSlaves
  lastInsertId := none
  level := 0
  isolation := none

/-- Whether a transaction is open. -/
def isActive (s : Session) : Bool :=
  s.level != 0

/-- Forget the transaction. -/
def resetTransaction (s : Session) : Session :=
  { s with level := 0, isolation := none }

end Session

/-- A session, its connection and the servers behind it. -/
structure RunState (σ : Type) where
  servers : σ
  /-- The time in nanoseconds; no two readings of it are equal. -/
  clock : Nat
  journal : Journal
  /-- The number of the next physical connection. -/
  nextLink : Nat
  /-- The servers that failed, and until when they are skipped. -/
  dead : List (String × Nat)
  schemas : SchemaCache
  /-- The query caches. The connection's own one, if there is one, is the first. -/
  caches : List MemoryCache
  group : ShareGroup Rows
  session : Session

/-- The state of a new connection with its first session. -/
def RunState.ofConnection {σ : Type} (c : Connection) (servers : σ) : RunState σ where
  servers := servers
  clock := 0
  journal := []
  nextLink := 0
  dead := []
  schemas := .empty c.config.enableSchemaCache c.config.schemaCacheExclude
  caches := (c.cacheCapacity.map MemoryCache.ofCapacity).toList
  group := .empty
  session := .ofConnection c

/-- A step of a session. -/
def Run (σ α : Type) : Type :=
  RunState σ → Outcome α × RunState σ

namespace Run

variable {σ α β : Type}

def pure (a : α) : Run σ α :=
  fun w => (.done a, w)

/-- One step after another; the second is not taken if the first does not end in a result. -/
def bind (x : Run σ α) (f : α → Run σ β) : Run σ β := fun w =>
  match x w with
  | (.done a, w) => f a w
  | (.failed e, w) => (.failed e, w)
  | (.cancelled, w) => (.cancelled, w)

instance : Monad (Run σ) where
  pure := Run.pure
  bind := Run.bind

def fail (e : Error) : Run σ α :=
  fun w => (.failed e, w)

/-- The caller goes away. -/
def cancel : Run σ α :=
  fun w => (.cancelled, w)

def ofResult : Result α → Run σ α
  | .ok a => Run.pure a
  | .error e => fail e

/-- Take a step and go on whether or not it fails. -/
def attempt (x : Run σ α) : Run σ (Result α) := fun w =>
  match x w with
  | (.done a, w) => (.done (.ok a), w)
  | (.failed e, w) => (.done (.error e), w)
  | (.cancelled, w) => (.cancelled, w)

/-- Take a step, and clean up after it if it is cancelled. -/
def onCancel (cleanup : RunState σ → RunState σ) (x : Run σ α) : Run σ α := fun w =>
  match x w with
  | (.cancelled, w) => (.cancelled, cleanup w)
  | r => r

def state : Run σ (RunState σ) :=
  fun w => (.done w, w)

def modify (f : RunState σ → RunState σ) : Run σ Unit :=
  fun w => (.done (), f w)

def session : Run σ Session :=
  fun w => (.done w.session, w)

def modifySession (f : Session → Session) : Run σ Unit :=
  modify fun w => { w with session := f w.session }

/-- Read the clock, which moves on. -/
def now : Run σ Nat :=
  fun w => (.done w.clock, { w with clock := w.clock + 1 })

/-- Wait for a number of milliseconds. -/
def sleep (ms : Nat) : Run σ Unit :=
  modify fun w => { w with clock := w.clock + ms * 1000000 }

/-- Enter an event into the journal. -/
def note (e : Event) : Run σ Unit :=
  modify fun w => { w with journal := e :: w.journal }

def log (level : LogLevel) (text : String) : Run σ Unit :=
  note (.logged level text)

/-- Ask the servers. -/
def ask (call : σ → Outcome α × σ) : Run σ α := fun w =>
  let (outcome, servers) := call w.servers
  (outcome, { w with servers })

/-- Look at something outside the session. -/
def observe (look : σ → α × σ) : Run σ α := fun w =>
  let (a, servers) := look w.servers
  (.done a, { w with servers })

/-- Send a statement to a server, whatever its answer. -/
def send (link : Link) (sql : String) (values : List Value) (call : σ → Outcome α × σ) :
    Run σ α := fun w =>
  let (outcome, servers) := call w.servers
  (outcome,
    { w with servers, journal := .sent link sql values outcome.ending :: w.journal })

end Run

/-- A connection and the servers behind it. -/
structure Client (σ : Type) where
  connection : Connection
  backend : Backend σ
  /-- After how many attempts at one statement a caller goes away. -/
  patience : Nat

end QueryKit
