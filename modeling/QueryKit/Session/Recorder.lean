import QueryKit.Session.Basic

/-!
# Recording servers

Servers that run no statements. They answer reads from a script and fail when they are told to, so
that a session can be rehearsed; the journal shows what was sent to them.

- `ScriptedServer`: the answers and failures of one server.
- `Recorder`: the servers of a connection, and `recorder` as the backend they make.
-/

namespace QueryKit

/-- A server that follows a script. -/
structure ScriptedServer where
  /-- The rows for statements that contain a text; the first text found counts. -/
  rows : List (String × List Row)
  schemas : List TableSchema
  /-- The failures of the next statements. -/
  failures : List Error
  /-- The failure of every statement, once there are no others. -/
  failAlways : Option Error
  unreachable : Bool
  /-- How many INSERT statements have run. -/
  inserted : Nat

namespace ScriptedServer

def empty : ScriptedServer :=
  ⟨[], [], [], none, false, 0⟩

/-- Let the server fail its next statement after those that fail already. -/
def failNext (s : ScriptedServer) (e : Error) : ScriptedServer :=
  { s with failures := s.failures ++ [e] }

/-- Take a statement: the failure that is due, if one is. -/
def receive (s : ScriptedServer) : Option Error × ScriptedServer :=
  match s.failures with
  | e :: failures => (some e, { s with failures })
  | [] => (s.failAlways, s)

/-- The rows for a statement. -/
def answer (s : ScriptedServer) (sql : String) : List Row :=
  ((s.rows.find? fun r => Text.hasText r.1.toList sql.toList).map (·.2)).getD []

/-- Whether a statement inserts rows. -/
def isInsert (sql : String) : Bool :=
  (Text.dropText "INSERT".toList (Text.toUpper (Text.trimStart sql.toList))).isSome

def fetch (sql : String) (s : ScriptedServer) : Outcome (List Row) × ScriptedServer :=
  match s.receive with
  | (some e, s) => (.failed e, s)
  | (none, s) => (.done (s.answer sql), s)

def execute (sql : String) (s : ScriptedServer) : Outcome Executed × ScriptedServer :=
  match s.receive with
  | (some e, s) => (.failed e, s)
  | (none, s) =>
    if isInsert sql then
      (.done ⟨1, some (s.inserted + 1 : Nat)⟩, { s with inserted := s.inserted + 1 })
    else (.done ⟨1, none⟩, s)

end ScriptedServer

/-- The scripted servers of a connection. -/
abbrev Recorder := PoolId → ScriptedServer

namespace Recorder

/-- Change one server. -/
def update (r : Recorder) (id : PoolId) (f : ScriptedServer → ScriptedServer) : Recorder :=
  fun i => if i = id then f (r i) else r i

/-- Ask one server. -/
def ask {α : Type} (id : PoolId) (call : ScriptedServer → Outcome α × ScriptedServer)
    (r : Recorder) : Outcome α × Recorder :=
  let (outcome, server) := call (r id)
  (outcome, r.update id fun _ => server)

def acquire (pool : Pool) (r : Recorder) : Outcome Unit × Recorder :=
  if (r pool.id).unreachable then (.failed (.connectionUnavailable (.serverDown pool.dsn)), r)
  else (.done (), r)

def tableSchema (id : PoolId) (name : String) (r : Recorder) :
    Outcome (Option TableSchema) × Recorder :=
  (.done ((r id).schemas.find? fun t => t.name == name), r)

end Recorder

/-- Scripted servers as a backend. Servers are tried in their order, and nobody else reads. -/
def recorder : Backend Recorder where
  acquire := Recorder.acquire
  fetch link sql _ := Recorder.ask link.pool.id (ScriptedServer.fetch sql)
  execute link sql _ := Recorder.ask link.pool.id (ScriptedServer.execute sql)
  tableSchema link name := Recorder.tableSchema link.pool.id name
  arrange pools r := (pools, r)
  arrange_perm pools _ := List.Perm.refl pools
  await _ r := (.abandoned, r)

end QueryKit
