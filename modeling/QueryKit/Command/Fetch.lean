import QueryKit.Cache.Key
import QueryKit.Command.Run
import QueryKit.Value.Stored

/-!
# Reading with commands

- `Client.fetchCached`: the rows of a statement, from the cache where they are kept there.
- `Client.fetchRows`: the same, through the flights of identical reads if the command asks for it.
- `Client.queryAll`, `queryOne`, `queryScalar`, `queryColumn`: what callers make of the rows.
-/

namespace QueryKit.Client

variable {σ α β : Type} (c : Client σ)

/-- The cache of a command with the time that its results stay there, in nanoseconds. -/
def cacheOf (cmd : Command) : Option (Nat × Option Nat) :=
  if c.connection.config.enableQueryCache then do
    let policy ← cmd.cache
    let number ← policy.own.or (c.connection.cacheCapacity.map fun _ => 0)
    return (number, policy.ttl.map (· * 1000000000))
  else none

/-- The key of a result: the way it is read, the data source and the statement with its values. -/
def resultKey (method rawSql : String) : String :=
  cacheKey ["Command", method, "assoc", c.connection.dsn, rawSql]

/-- A cache with nothing in it. -/
def newCache : Run σ Nat := fun w =>
  (.done w.caches.length,
    { w with caches := w.caches ++ [.ofCapacity MemoryCache.standardCapacity] })

/-- The text that a cache keeps under a key. -/
def readCache (number : Nat) (key : String) : Run σ (Option String) := do
  let time ← Run.now
  match (← Run.state).caches[number]? with
  | none => return none
  | some cache =>
    let (text, cache) := cache.get key time
    Run.modify fun w => { w with caches := w.caches.set number cache }
    return text

/-- Keep a text in a cache. -/
def writeCache (number : Nat) (key text : String) (ttl : Option Nat) : Run σ Unit := do
  let time ← Run.now
  Run.modify fun w =>
    { w with caches := w.caches.modify number fun cache => cache.set key text ttl time }

/-- The rows that the cache of a command keeps. A text that keeps no rows is passed over. -/
def cachedRows (cmd : Command) (key : String) : Run σ (Option (List Row)) := do
  match c.cacheOf cmd with
  | none => return none
  | some (number, _) => return (← readCache number key).bind fun text => (readRows text).toOption

/-- Keep the rows of a statement, if the command has a cache. -/
def storeRows (cmd : Command) (key : String) (rows : List Row) : Run σ Unit := do
  if let some (number, ttl) := c.cacheOf cmd then
    writeCache number key (storedRows rows) ttl
    c.logQuery "Saved query result in cache"

/-- The rows of a statement, from the cache or from a server. -/
def fetchCached (cmd : Command) (method rawSql : String) : Run σ (Rows × Command) := do
  let key := c.resultKey method rawSql
  match ← c.cachedRows cmd key with
  | some rows =>
    c.logQuery (rawSql ++ "; [Query result read from cache]")
    return (.ok rows, cmd)
  | none =>
    c.logQuery rawSql
    let (result, after) ← c.runCommand cmd rawSql c.backend.fetch
    c.release false
    match result with
    | .error e => return (.error e, after)
    | .ok rows =>
      c.storeRows cmd key rows
      return (.ok rows, after)

/-- Take a ticket for a key. -/
def arrive (key : String) : Run σ Ticket := fun w =>
  let (ticket, group) := w.group.arrive key
  (.done ticket, { w with group })

/-- The rows of a statement that may be shared with other callers. -/
def fetchRows (cmd : Command) (method : String) : Run σ (Rows × Command) := do
  let raw := cmd.rawSql c.connection
  if cmd.share then
    let key := c.resultKey method raw
    match ← arrive key with
    | .leader flight =>
      let answer ← (c.fetchCached cmd method raw).onCancel fun w =>
        { w with group := w.group.abandon key flight }
      Run.modify fun w => { w with group := w.group.land key flight answer.1 }
      return answer
    | .follower flight =>
      match ← Run.observe (c.backend.await flight) with
      | .landed rows => return (rows, cmd)
      | .abandoned => c.fetchCached cmd method raw
      | .running => Run.cancel
  else c.fetchCached cmd method raw

/-- What a caller makes of the rows of a command. -/
def fetchAs (method : String) (f : List Row → Result β) (cmd : Command) :
    Run σ (Result β × Command) := do
  let (rows, cmd) ← c.fetchRows cmd method
  return (rows.bind f, cmd)

def queryAll : Command → Run σ (Rows × Command) :=
  c.fetchAs "fetchAll" .ok

/-- The first row. -/
def queryOne : Command → Run σ (Result (Option Row) × Command) :=
  c.fetchAs "fetch" fun rows => .ok rows.head?

/-- The first cell of the first row. -/
def queryScalar : Command → Run σ (Result (Option Value) × Command) :=
  c.fetchAs "fetchColumn" fun rows => .ok (rows.head?.bind Row.first?)

/-- The first cell of each row. -/
def queryColumn : Command → Run σ (Result (List Value) × Command) :=
  c.fetchAs "fetchAllColumn" fun rows => .ok (rows.map fun row => row.first?.getD .null)

/-- Every row as a structure. -/
def queryAllAs (decode : Row → Result α) : Command → Run σ (Result (List α) × Command) :=
  c.fetchAs "fetchAll" fun rows => rows.mapM decode

/-- The first row as a structure. -/
def queryOneAs (decode : Row → Result α) : Command → Run σ (Result (Option α) × Command) :=
  c.fetchAs "fetch" fun rows => rows.head?.mapM decode

end QueryKit.Client
