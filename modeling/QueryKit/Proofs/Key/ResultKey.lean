import QueryKit.Proofs.Cache.Reads
import QueryKit.Proofs.Key.Literals
import QueryKit.Proofs.Key.Parts
import QueryKit.Proofs.Share.Flights

/-!
# What result keys tell apart

- `Client.resultKey_inj`: without a collision a key says the whole statement with its values.
- `Client.Untouched`: a read left nothing that another command could find.
- `Client.resultKey_eq_iff`: when two commands for one statement have one key, and what follows for
  their reads when they have not. Values that are written alike have one key
  (`Client.undecodedBytes_key`).
-/

namespace QueryKit

namespace Client

open Run

variable {σ : Type} (c : Client σ)

/-- The texts from which the key of a result is made. -/
def resultParts (method rawSql : String) : List String :=
  ["Command", method, "assoc", c.connection.dsn] ++ [rawSql]

theorem resultKey_eq (method rawSql : String) :
    c.resultKey method rawSql = cacheKey (c.resultParts method rawSql) :=
  rfl

/-- Without a collision a key says the whole statement with its values. -/
theorem resultKey_inj {method raw raw' : String}
    (hno : Sha256.NoCollision (keyBytes (c.resultParts method raw))
      (keyBytes (c.resultParts method raw')))
    (h : c.resultKey method raw = c.resultKey method raw') : raw = raw' := by
  rw [resultKey_eq, resultKey_eq] at h
  exact keyBytes_last_inj (keyBytes_of_cacheKey h hno)

/-! ## Reads under another key -/

variable {c} {cmd cmd' : Command} {method key key' : String} {w w' : RunState σ} {number : Nat}
  {cache : MemoryCache} {e : CacheEntry}

/-- An entry under another key was in the cache before. -/
theorem looked_entry (hcache : (c.looked cmd key w)[number]? = some cache)
    (he : e ∈ cache.entries) :
    ∃ cache', w.caches[number]? = some cache' ∧
      ∃ e' ∈ cache'.entries, e'.key = e.key ∧ e'.text = e.text := by
  obtain ⟨cache', hcache', rfl | rfl⟩ := looked_cases hcache
  · exact ⟨cache, hcache', e, he, rfl, rfl⟩
  · exact ⟨cache', hcache', MemoryCache.mem_get he⟩

theorem Answered.entry {r : Outcome (Rows × Command) × RunState σ} (h : c.Answered cmd key w r)
    (hcache : r.2.caches[number]? = some cache) (he : e ∈ cache.entries) (hkey : e.key ≠ key) :
    ∃ cache', w.caches[number]? = some cache' ∧
      ∃ e' ∈ cache'.entries, e'.key = e.key ∧ e'.text = e.text := by
  cases h with
  | kept _ _ caches => exact looked_entry (caches ▸ hcache) he
  | fetched _ _ caches =>
    obtain ⟨cache', hcache', ⟨rfl, -⟩ | ⟨ttl, -, rfl⟩⟩ := stored_cases (caches ▸ hcache)
    · exact looked_entry hcache' he
    · rcases MemoryCache.mem_set he with ⟨hsame, -⟩ | ⟨-, he⟩
      · exact absurd hsame hkey
      · exact looked_entry hcache' he
  | broken _ _ caches => exact looked_entry (caches ▸ hcache) he

/-- How a read ends, whether it follows another caller or not: as a read of its own, or with the
caches and the flights as they are. -/
theorem fetchRows_cases (c : Client σ) (cmd : Command) (method : String) (w : RunState σ) :
    c.Answered cmd (c.resultKey method (cmd.rawSql c.connection)) w (c.fetchRows cmd method w) ∨
      (c.fetchRows cmd method w).2.caches = w.caches := by
  cases hflight : c.flightOf cmd method w with
  | none => exact .inl (fetchRows_answered hflight)
  | some flight =>
    rcases hawait : c.backend.await flight w.servers with ⟨_ | rows | _, servers⟩
    · rw [fetchRows_running hflight hawait]
      exact .inr rfl
    · rw [fetchRows_landed hflight hawait]
      exact .inr rfl
    · exact .inl (fetchRows_abandoned hflight hawait)

theorem fetchRows_entry (hcache : (c.fetchRows cmd method w).2.caches[number]? = some cache)
    (he : e ∈ cache.entries)
    (hkey : e.key ≠ c.resultKey method (cmd.rawSql c.connection)) :
    ∃ cache', w.caches[number]? = some cache' ∧
      ∃ e' ∈ cache'.entries, e'.key = e.key ∧ e'.text = e.text := by
  rcases fetchRows_cases c cmd method w with hanswered | hcaches
  · exact hanswered.entry hcache he hkey
  · exact ⟨cache, hcaches ▸ hcache, e, he, rfl, rfl⟩

/-- A read leaves the flights of other keys as they are, while it leads and when it has ended. -/
theorem fetchRows_inflight (hkey : key ≠ c.resultKey method (cmd.rawSql c.connection)) :
    (c.boarded cmd method w).group.inflight.lookup key = w.group.inflight.lookup key ∧
      (c.fetchRows cmd method w).2.group.inflight.lookup key = w.group.inflight.lookup key := by
  have hboarded : (c.boarded cmd method w).group.inflight.lookup key =
      w.group.inflight.lookup key := by
    simp only [boarded, ShareGroup.arrive]
    split
    · rfl
    · rw [lookup_append_single, if_neg hkey, Option.or_none]
  refine ⟨hboarded, ?_⟩
  have hfetch : ∀ w₁ : RunState σ,
      (c.fetchCached cmd method (cmd.rawSql c.connection) w₁).2.group = w₁.group :=
    fetchCached_sameFlights cmd method _
  by_cases hshare : cmd.share = true
  · cases hflight : c.flightOf cmd method w with
    | none =>
      obtain ⟨ending, heq⟩ := fetchRows_leader hshare hflight
      rw [heq]
      simp only [ShareGroup.conclude]
      rw [lookup_filter_ne, if_neg hkey, hfetch, hboarded]
    | some flight =>
      rw [fetchRows_follower hflight]
      rcases hawait : c.backend.await flight w.servers with ⟨_ | rows | _, servers⟩ <;>
        simp only [Run.bind, Run.observe, hawait]
      · rfl
      · rfl
      · rw [hfetch]
  · unfold fetchRows
    rw [if_neg hshare, hfetch]

/-- What a command finds in the second state it could have found in the first one: the same flight,
and kept rows only where an entry of its cache kept them under its key. -/
structure Untouched (c : Client σ) (cmd : Command) (method : String) (w w' : RunState σ) :
    Prop where
  flight : c.flightOf cmd method w' = c.flightOf cmd method w
  kept : ∀ rows, c.kept cmd (c.resultKey method (cmd.rawSql c.connection)) w' = some rows →
    ∃ number ttl cache, c.cacheOf cmd = some (number, ttl) ∧ w.caches[number]? = some cache ∧
      ∃ e ∈ cache.entries,
        e.key = c.resultKey method (cmd.rawSql c.connection) ∧ readRows e.text = .ok rows

/-- A read leaves nothing that a command with another key could find. -/
theorem fetchRows_untouched (hkey : c.resultKey method (cmd.rawSql c.connection) ≠
      c.resultKey method (cmd'.rawSql c.connection)) (w : RunState σ) :
    c.flightOf cmd' method (c.boarded cmd method w) = c.flightOf cmd' method w ∧
      c.Untouched cmd' method w (c.fetchRows cmd method w).2 := by
  obtain ⟨hboarded, hended⟩ := fetchRows_inflight (c := c) (w := w) hkey.symm
  refine ⟨by rw [flightOf, flightOf, hboarded], by rw [flightOf, flightOf, hended],
    fun rows hkept => ?_⟩
  obtain ⟨⟨number, ttl⟩, huses, hfound⟩ := Option.bind_eq_some_iff.mp hkept
  obtain ⟨cache, hcache, htext⟩ := Option.bind_eq_some_iff.mp hfound
  obtain ⟨text, hget, hread⟩ := Option.bind_eq_some_iff.mp htext
  obtain ⟨e, he, hekey, rfl, -⟩ := MemoryCache.get_hit hget
  obtain ⟨cache', hcache', e', he', hkey', htext'⟩ :=
    fetchRows_entry hcache he (hekey ▸ hkey.symm)
  refine ⟨number, ttl, cache', huses, hcache', e', he', hkey'.trans hekey, ?_⟩
  rw [htext']
  cases hrows : readRows e.text with
  | error f =>
    rw [hrows] at hread
    cases hread
  | ok rows' =>
    rw [hrows] at hread
    exact congrArg Except.ok (Option.some.inj hread)

/-! ## Keys of statements with values -/

variable (c) {sql : String} {vs ws : List Value}

/-- Two commands for one statement, with values of the same kinds in its places and hashes that do
not collide. Their keys are the same exactly if their texts are. If the places stand apart, this is
so exactly if the plain texts of the values are the same, and for legible values exactly if the
values are. A read of one command leaves nothing that the other one could find, if their keys
differ. -/
theorem resultKey_eq_iff (method : String) (hcmd : cmd.Binds sql vs) (hcmd' : cmd'.Binds sql ws)
    (hplaces : vs.length = Command.places c.connection sql)
    (hkinds : List.Forall₂ Value.SameKind vs ws)
    (hno : Sha256.NoCollision (keyBytes (c.resultParts method (cmd.rawSql c.connection)))
      (keyBytes (c.resultParts method (cmd'.rawSql c.connection)))) :
    let key := c.resultKey method (cmd.rawSql c.connection)
    let key' := c.resultKey method (cmd'.rawSql c.connection)
    (key = key' ↔ cmd.rawSql c.connection = cmd'.rawSql c.connection) ∧
    (Scan.apart (Scan.pieces c.connection.dialect.backslashEscapes sql) = true →
      (key = key' ↔ vs.map Value.toPlainString = ws.map Value.toPlainString) ∧
      ((∀ v ∈ vs, v.Legible) → (∀ w ∈ ws, w.Legible) → (key = key' ↔ vs = ws))) ∧
    (key ≠ key' → ∀ w : RunState σ,
      c.flightOf cmd' method (c.boarded cmd method w) = c.flightOf cmd' method w ∧
        c.Untouched cmd' method w (c.fetchRows cmd method w).2) := by
  intro key key'
  have hraw : key = key' ↔ cmd.rawSql c.connection = cmd'.rawSql c.connection :=
    ⟨c.resultKey_inj hno, fun h => congrArg (c.resultKey method) h⟩
  refine ⟨hraw, fun hapart => ?_, fun hkey => fetchRows_untouched hkey⟩
  have hplain : key = key' ↔ vs.map Value.toPlainString = ws.map Value.toPlainString :=
    hraw.trans (Command.rawSql_eq_iff hcmd hcmd' hplaces hkinds hapart)
  refine ⟨hplain, fun hvs hws => hplain.trans ⟨map_toPlainString_inj hkinds hvs hws, ?_⟩⟩
  rintro rfl
  rfl

open Command (places Binds cachingRehearsal)

/-- The statement by which bytes and texts are looked up. -/
def lookupSql : String := "SELECT id FROM t WHERE a = ?"

/-- The command that looks up a value, with a cache. -/
def lookupCommand (v : Value) : Command :=
  { (Command.empty.setRawSql lookupSql).bindPositional v with cache := some ⟨none, none⟩ }

theorem lookupCommand_binds (v : Value) : (lookupCommand v).Binds lookupSql [v] :=
  have h := (Binds.empty lookupSql).bindPositional v
  ⟨h.sql, h.entries⟩

/-- The key of a lookup. -/
def lookupKey (v : Value) : String :=
  cachingRehearsal.resultKey "fetchAll" ((lookupCommand v).rawSql cachingRehearsal.connection)

/-- The state in which a value has been looked up. -/
def lookedUpState (v : Value) : RunState Recorder :=
  (cachingRehearsal.queryAll (lookupCommand v) unreadState).2

theorem lookedUpState_caches : (lookedUpState (.bytes [0xff])).caches =
    [⟨8, [⟨lookupKey (.bytes [0xff]), storedRows [], none, 1⟩]⟩] := by
  rfl

/-- What has been looked up is found again by every lookup with the same key. -/
theorem lookedUpState_supplied {v : Value} (hkey : lookupKey v = lookupKey (.bytes [0xff])) :
    cachingRehearsal.supplied (lookupCommand v) "fetchAll" (lookedUpState (.bytes [0xff])) =
      some (.ok []) := by
  have hcache : cachingRehearsal.cacheOf (lookupCommand v) = some (0, none) := rfl
  have hread : readRows (storedRows []) = .ok [] := rfl
  have hflight : cachingRehearsal.flightOf (lookupCommand v) "fetchAll"
      (lookedUpState (.bytes [0xff])) = none := rfl
  unfold lookupKey at hkey
  simp [supplied, kept, hcache, hflight, lookedUpState_caches, hkey, lookupKey, MemoryCache.get,
    MemoryCache.find?, CacheEntry.isExpired, hread, Except.toOption]

/-- Two bytes that encode no character are looked up under one key, and so the second lookup is
answered with what the first one found. Two texts are looked up under two keys. -/
theorem undecodedBytes_key :
    lookupKey (.bytes [0xff]) = lookupKey (.bytes [0xfe]) ∧
      (∃ w', cachingRehearsal.fetchRows (lookupCommand (.bytes [0xfe])) "fetchAll"
          (lookedUpState (.bytes [0xff])) = (.done (.ok [], lookupCommand (.bytes [0xfe])), w') ∧
        Quiet (lookedUpState (.bytes [0xff])) w') ∧
      lookupKey (.string "a") ≠ lookupKey (.string "b") := by
  have hplaces : 1 = places cachingRehearsal.connection lookupSql := by decide
  have hapart : Scan.apart (Scan.pieces
      cachingRehearsal.connection.dialect.backslashEscapes lookupSql) = true := by decide
  have hbytes := (resultKey_eq_iff cachingRehearsal "fetchAll"
    (lookupCommand_binds (.bytes [0xff])) (lookupCommand_binds (.bytes [0xfe])) hplaces
    (.cons (.bytes _ _) .nil) (fun _ => rfl)).2.1 hapart
  have htexts := (resultKey_eq_iff cachingRehearsal "fetchAll"
    (lookupCommand_binds (.string "a")) (lookupCommand_binds (.string "b")) hplaces
    (.cons (.string _ _) .nil) (fun h => absurd h (by decide +kernel))).2.1 hapart
  have hkey : lookupKey (.bytes [0xff]) = lookupKey (.bytes [0xfe]) := hbytes.1.mpr rfl
  refine ⟨hkey, fetchRows_of_supplied (lookedUpState_supplied hkey.symm), fun h => ?_⟩
  have hvalues := (htexts.2 (by simp [Value.Legible]) (by simp [Value.Legible])).mp h
  simp at hvalues

end Client

end QueryKit
