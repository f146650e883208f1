/-!
# A cache of texts

- `MemoryCache`: at most `capacity` texts under distinct keys. Each has a time after which it is gone
  and remembers when it was last used.
- `MemoryCache.get`: the text of a key. One whose time has passed is dropped.
- `MemoryCache.set`: drops what has expired; a new key in a full cache takes the place of the entry
  that was not used for longest.

Times are numbers of nanoseconds and are given by the caller.
-/

namespace QueryKit

/-- A text in a cache. -/
structure CacheEntry where
  key : String
  text : String
  /-- The time from which the entry counts as gone. -/
  expires : Option Nat
  lastUse : Nat
deriving DecidableEq, Repr

/-- Whether the time of an entry has passed. -/
def CacheEntry.isExpired (e : CacheEntry) (now : Nat) : Bool :=
  e.expires.any fun t => decide (t ≤ now)

/-- A bounded cache. -/
structure MemoryCache where
  capacity : Nat
  entries : List CacheEntry
deriving DecidableEq, Repr

namespace MemoryCache

/-- The capacity of a cache for which none is given. -/
def standardCapacity : Nat := 1000

def ofCapacity (capacity : Nat) : MemoryCache :=
  ⟨capacity, []⟩

def size (c : MemoryCache) : Nat :=
  c.entries.length

def find? (c : MemoryCache) (key : String) : Option CacheEntry :=
  c.entries.find? fun e => e.key == key

/-- Drop the entry of a key. -/
def delete (c : MemoryCache) (key : String) : MemoryCache :=
  { c with entries := c.entries.filter fun e => e.key != key }

def clear (c : MemoryCache) : MemoryCache :=
  { c with entries := [] }

/-- Note the use of a key. -/
def touch (c : MemoryCache) (key : String) (now : Nat) : MemoryCache :=
  { c with
    entries := c.entries.map fun e => if e.key == key then { e with lastUse := now } else e }

/-- The text of a key. -/
def get (c : MemoryCache) (key : String) (now : Nat) : Option String × MemoryCache :=
  match c.find? key with
  | none => (none, c)
  | some e => if e.isExpired now then (none, c.delete key) else (some e.text, c.touch key now)

/-- The entry that was not used for longest. -/
def leastRecent? : List CacheEntry → Option CacheEntry
  | [] => none
  | e :: r =>
    match leastRecent? r with
    | some f => if e.lastUse ≤ f.lastUse then some e else some f
    | none => some e

/-- Drop the entry that was not used for longest. -/
def evict (c : MemoryCache) : MemoryCache :=
  match leastRecent? c.entries with
  | some e => c.delete e.key
  | none => c

/-- Drop what has expired. -/
def dropExpired (c : MemoryCache) (now : Nat) : MemoryCache :=
  { c with entries := c.entries.filter fun e => !e.isExpired now }

/-- Keep a text under a key for `ttl` nanoseconds, or until it is evicted. -/
def set (c : MemoryCache) (key text : String) (ttl : Option Nat) (now : Nat) : MemoryCache :=
  let live := c.dropExpired now
  let roomy := if (live.find? key).isNone ∧ live.capacity ≤ live.size then live.evict else live
  let entry : CacheEntry := ⟨key, text, ttl.map (now + ·), now⟩
  { roomy with entries := (roomy.delete key).entries ++ [entry] }

end MemoryCache

end QueryKit
