import QueryKit.Proofs.Cache.Memory
import QueryKit.Proofs.Command.Served

/-!
# Runs of reads

- `Reading`: a read of a command with the state in which it starts; `Client.Reads`: the reads of a
  run, the latest first, with whatever happens between them to sessions, servers and the clock.
- `Client.Latest`: the rows that the latest read of a key with a cache got from a server.
- `Client.Tidy`: what the caches keep are the rows of the latest reads. Every read keeps that
  (`Tidy.read`), and so it is along a run (`Reads.tidy`).
- `Client.Reads.cache_sound`: what a read after a run returns when it is not sent, and what it does
  to the caches.
-/

namespace QueryKit

/-- A read of a command. -/
structure Reading (σ : Type) where
  cmd : Command
  method : String
  /-- The state in which the read starts. -/
  before : RunState σ

namespace Reading

variable {σ : Type} (c : Client σ) (r : Reading σ)

def outcome : Outcome (Rows × Command) × RunState σ :=
  c.fetchRows r.cmd r.method r.before

def rawSql : String :=
  r.cmd.rawSql c.connection

def key : String :=
  c.resultKey r.method (r.rawSql c)

/-- The read goes through a cache. -/
def Uses (number : Nat) : Prop :=
  ∃ ttl, c.cacheOf r.cmd = some (number, ttl)

/-- The read is made in the same way with the same statement and values. -/
def Alike (cmd : Command) (method : String) : Prop :=
  r.method = method ∧ r.rawSql c = cmd.rawSql c.connection

/-- The read succeeded, and its rows came from a server. -/
def Fetched (rows : List Row) : Prop :=
  ∃ cmd', (r.outcome c).1 = .done (.ok rows, cmd') ∧
    r.cmd.SentSince c.connection r.before.journal (r.outcome c).2.journal

end Reading

namespace Client

open Run

variable {σ : Type} (c : Client σ)

/-- The reads of a run, the latest first, and the state after them. Between reads everything may
change but the caches and the flights. -/
inductive Reads : List (Reading σ) → RunState σ → Prop
  | start (w : RunState σ) : (∀ cache ∈ w.caches, cache.entries = []) → w.group.inflight = [] →
    Reads [] w
  | read {past : List (Reading σ)} {w : RunState σ} (cmd : Command) (method : String) :
    Reads past w → Reads (⟨cmd, method, w⟩ :: past) (c.fetchRows cmd method w).2
  | newCache {past : List (Reading σ)} {w : RunState σ} : Reads past w →
    Reads past (newCache w).2
  | elsewhere {past : List (Reading σ)} {w w' : RunState σ} : Reads past w →
    w'.caches = w.caches → w'.group = w.group → Reads past w'

/-- The latest read in a cache under a key that got its rows from a server got these rows. -/
def Latest (past : List (Reading σ)) (number : Nat) (key : String) (rows : List Row) : Prop :=
  ∃ later r earlier, past = later ++ r :: earlier ∧ r.key c = key ∧ r.Uses c number ∧
    r.Fetched c rows ∧
    ∀ r' ∈ later, r'.key c = key → r'.Uses c number → ∀ rows', ¬ r'.Fetched c rows'

/-- What the caches keep are the rows of the latest reads; nobody reads. -/
structure Tidy (past : List (Reading σ)) (w : RunState σ) : Prop where
  landed : w.group.inflight = []
  distinct : ∀ {number : Nat} {cache : MemoryCache}, w.caches[number]? = some cache →
    cache.Distinct
  latest : ∀ {number : Nat} {cache : MemoryCache} {e : CacheEntry},
    w.caches[number]? = some cache → e ∈ cache.entries →
    ∃ rows, e.text = storedRows rows ∧ c.Latest past number e.key rows

variable {c} {past : List (Reading σ)} {cmd : Command} {method : String} {w w' : RunState σ}

/-! ## The latest rows -/

theorem Latest.later {r : Reading σ} {number : Nat} {key : String} {rows : List Row}
    (h : c.Latest past number key rows)
    (hr : r.key c = key → r.Uses c number → ∀ rows', ¬ r.Fetched c rows') :
    c.Latest (r :: past) number key rows := by
  obtain ⟨later, r₀, earlier, rfl, hkey, huses, hfetched, hlater⟩ := h
  refine ⟨r :: later, r₀, earlier, rfl, hkey, huses, hfetched, fun r' hr' => ?_⟩
  rcases List.mem_cons.mp hr' with rfl | hr'
  · exact hr
  · exact hlater r' hr'

theorem Latest.now {r : Reading σ} {number : Nat} {rows : List Row} (huses : r.Uses c number)
    (hfetched : r.Fetched c rows) : c.Latest (r :: past) number (r.key c) rows :=
  ⟨[], r, past, rfl, rfl, huses, hfetched, by simp⟩

/-! ## Flights -/

theorem flightOf_none (hw : w.group.inflight = []) : c.flightOf cmd method w = none := by
  simp [flightOf, hw]

/-- The flights are the same. -/
def SameFlights (w w' : RunState σ) : Prop :=
  w'.group = w.group

theorem sameFlights_wiring : Wiring (SameFlights : RunState σ → RunState σ → Prop) where
  trans h h' := h'.trans h
  free _ _ _ _ _ _ _ := rfl
  note _ _ _ := rfl

theorem fetchCached_sameFlights (cmd : Command) (method rawSql : String) :
    Changes SameFlights (c.fetchCached cmd method rawSql) := by
  have hcached : ∀ key, Changes SameFlights (c.cachedRows cmd key) := fun key w => by
    obtain ⟨time, hdone⟩ := cachedRows_done (c := c) cmd key w
    rw [hdone]
    rfl
  have hstore : ∀ cmd key rows, Changes SameFlights (c.storeRows cmd key rows) := by
    intro cmd key rows
    unfold storeRows
    split
    · refine .bind sameFlights_wiring (fun w => rfl) fun _ => logQuery_changes sameFlights_wiring _
    · exact .pure sameFlights_wiring _
  refine .bind sameFlights_wiring (hcached _) fun cached => ?_
  split
  · exact .bind sameFlights_wiring (logQuery_changes sameFlights_wiring _) fun _ =>
      .pure sameFlights_wiring _
  · refine .bind sameFlights_wiring (logQuery_changes sameFlights_wiring _) fun _ => ?_
    refine .bind sameFlights_wiring
      (runCommand_changes sameFlights_wiring _ _ _ fun _ _ _ _ _ => rfl) fun r => ?_
    refine .bind sameFlights_wiring (release_changes sameFlights_wiring false) fun _ => ?_
    split
    · exact .pure sameFlights_wiring _
    · exact .bind sameFlights_wiring (hstore _ _ _) fun _ => .pure sameFlights_wiring _

/-- A read that starts without flights leaves none. -/
theorem fetchRows_lands (hw : w.group.inflight = []) :
    (c.fetchRows cmd method w).2.group.inflight = [] := by
  by_cases hshare : cmd.share = true
  · obtain ⟨ending, heq⟩ := fetchRows_leader (c := c) (w := w) hshare (flightOf_none hw)
    have hgroup := fetchCached_sameFlights (c := c) cmd method (cmd.rawSql c.connection)
      (c.boarded cmd method w)
    rw [heq]
    change (ShareGroup.conclude _ _ _ _).inflight = []
    rw [SameFlights] at hgroup
    rw [hgroup]
    simp [boarded, ShareGroup.arrive, ShareGroup.conclude, hw]
  · have hgroup := fetchCached_sameFlights (c := c) cmd method (cmd.rawSql c.connection) w
    unfold fetchRows
    rw [if_neg hshare]
    rw [SameFlights] at hgroup
    rw [hgroup, hw]

/-! ## What a read does to a cache -/

variable {key : String} {number : Nat} {cache : MemoryCache} {rows : List Row}

theorem looked_cases (h : (c.looked cmd key w)[number]? = some cache) :
    ∃ cache', w.caches[number]? = some cache' ∧
      (cache = cache' ∨ cache = (cache'.get key w.clock).2) := by
  unfold looked at h
  split at h
  · exact ⟨cache, h, .inl rfl⟩
  · rw [List.getElem?_modify] at h
    obtain ⟨cache', hcache', rfl⟩ := Option.map_eq_some_iff.mp h
    refine ⟨cache', hcache', ?_⟩
    split
    · exact .inr rfl
    · exact .inl rfl

theorem stored_cases {time : Nat} {caches : List MemoryCache}
    (h : (c.stored cmd key rows time caches)[number]? = some cache) :
    ∃ cache', caches[number]? = some cache' ∧
      (cache = cache' ∧ (∀ ttl, c.cacheOf cmd ≠ some (number, ttl)) ∨
        ∃ ttl, c.cacheOf cmd = some (number, ttl) ∧
          cache = cache'.set key (storedRows rows) ttl time) := by
  unfold stored at h
  split at h
  · next hnone => exact ⟨cache, h, .inl ⟨rfl, by simp [hnone]⟩⟩
  · next n ttl hsome =>
    rw [List.getElem?_modify] at h
    obtain ⟨cache', hcache', rfl⟩ := Option.map_eq_some_iff.mp h
    refine ⟨cache', hcache', ?_⟩
    split
    · next hn => exact .inr ⟨ttl, hn ▸ hsome, rfl⟩
    · next hn =>
      refine .inl ⟨rfl, fun ttl' h' => hn ?_⟩
      rw [hsome] at h'
      cases h'
      rfl

theorem forall₂_modify {α : Type} {R : α → α → Prop} (hR : ∀ a, R a a) (f : α → α) :
    ∀ (l : List α) (n : Nat), (∀ a, l[n]? = some a → R a (f a)) → List.Forall₂ R l (l.modify n f)
  | [], _, _ => by
    rw [List.modify_nil]
    exact .nil
  | a :: l, 0, h => .cons (h a rfl) (List.forall₂_same.mpr fun b _ => hR b)
  | a :: l, n + 1, h => .cons (hR a) (forall₂_modify hR f l n h)

/-- The rows that a cache keeps can be read from it. -/
def Readable (cache : MemoryCache) : Prop :=
  ∀ e ∈ cache.entries, ∃ rows, readRows e.text = .ok rows

/-- A read that finds nothing in caches that can be read drops at most what has expired. -/
theorem looked_onlyExpired (hmissed : c.kept cmd key w = none)
    (hw : ∀ {number : Nat} {cache : MemoryCache}, w.caches[number]? = some cache →
      cache.Distinct ∧ Readable cache) :
    List.Forall₂ (MemoryCache.OnlyExpired w.clock) w.caches (c.looked cmd key w) := by
  unfold kept at hmissed
  unfold looked
  split
  · exact List.forall₂_same.mpr fun _ _ => .refl
  · next number ttl hc =>
    refine forall₂_modify (fun _ => .refl) _ _ _ fun cache hcache => ?_
    obtain ⟨hd, hreadable⟩ := hw hcache
    refine MemoryCache.get_miss hd (Option.eq_none_iff_forall_ne_some.mpr fun text htext => ?_)
    -- a text that is found keeps rows, which would have been the answer
    obtain ⟨e, he, -, rfl, -⟩ := MemoryCache.get_hit htext
    obtain ⟨rows, hrows⟩ := hreadable e he
    simp [hc, hcache, htext, hrows, Except.toOption] at hmissed

/-! ## Reads keep the caches tidy -/

theorem Tidy.start (hcaches : ∀ cache ∈ w.caches, cache.entries = [])
    (hw : w.group.inflight = []) : c.Tidy [] w := by
  refine ⟨hw, fun h => ?_, fun h he => ?_⟩
  · simp [MemoryCache.Distinct, hcaches _ (List.mem_of_getElem? h)]
  · simp [hcaches _ (List.mem_of_getElem? h)] at he

theorem Tidy.elsewhere (h : c.Tidy past w) (hcaches : w'.caches = w.caches)
    (hgroup : w'.group = w.group) : c.Tidy past w' where
  landed := hgroup ▸ h.landed
  distinct hc := h.distinct (hcaches ▸ hc)
  latest hc he := h.latest (hcaches ▸ hc) he

theorem newCache_cases (h : (newCache w).2.caches[number]? = some cache) :
    w.caches[number]? = some cache ∨ cache.entries = [] := by
  unfold newCache at h
  by_cases hn : number < w.caches.length
  · rw [List.getElem?_append_left hn] at h
    exact .inl h
  · rw [List.getElem?_append_right (Nat.le_of_not_lt hn)] at h
    rw [List.mem_singleton.mp (List.mem_of_getElem? h)]
    exact .inr rfl

theorem Tidy.newCache (h : c.Tidy past w) : c.Tidy past (newCache w).2 where
  landed := h.landed
  distinct hc := by
    rcases newCache_cases hc with hc | hempty
    · exact h.distinct hc
    · simp [MemoryCache.Distinct, hempty]
  latest hc he := by
    rcases newCache_cases hc with hc | hempty
    · exact h.latest hc he
    · simp [hempty] at he

/-- Asking a cache keeps it tidy. -/
theorem Tidy.looked (h : c.Tidy past w) (hcache : (c.looked cmd key w)[number]? = some cache) :
    cache.Distinct ∧ ∀ e ∈ cache.entries,
      ∃ rows, e.text = storedRows rows ∧ c.Latest past number e.key rows := by
  obtain ⟨cache', hcache', rfl | rfl⟩ := looked_cases hcache
  · exact ⟨h.distinct hcache', fun e he => h.latest hcache' he⟩
  · refine ⟨(h.distinct hcache').get, fun e he => ?_⟩
    obtain ⟨e', he', hkey, htext⟩ := MemoryCache.mem_get he
    rw [← hkey, ← htext]
    exact h.latest hcache' he'

/-- A read that gets nothing from a server. -/
theorem Tidy.unfetched {r : Reading σ} (h : c.Tidy past w) (hlands : w'.group.inflight = [])
    (hcaches : w'.caches = c.looked cmd key w) (hr : ∀ rows, ¬ r.Fetched c rows) :
    c.Tidy (r :: past) w' where
  landed := hlands
  distinct hc := (h.looked (hcaches ▸ hc)).1
  latest hc he := by
    obtain ⟨rows, htext, hlatest⟩ := (h.looked (hcaches ▸ hc)).2 _ he
    exact ⟨rows, htext, hlatest.later fun _ _ => hr⟩

/-- A read that gets its rows from a server. -/
theorem Tidy.fetched {r : Reading σ} {time : Nat} (h : c.Tidy past w)
    (hlands : w'.group.inflight = []) (hfetched : r.Fetched c rows)
    (hcaches : w'.caches = c.stored r.cmd (r.key c) rows time (c.looked r.cmd (r.key c) w)) :
    c.Tidy (r :: past) w' := by
  refine ⟨hlands, fun {number cache} hc => ?_, fun {number cache e} hc he => ?_⟩
  · obtain ⟨cache', hcache', ⟨rfl, -⟩ | ⟨ttl, -, rfl⟩⟩ := stored_cases (hcaches ▸ hc)
    · exact (h.looked hcache').1
    · exact (h.looked hcache').1.set
  · obtain ⟨cache', hcache', ⟨rfl, hnot⟩ | ⟨ttl, huses, rfl⟩⟩ := stored_cases (hcaches ▸ hc)
    · obtain ⟨rows', htext, hlatest⟩ := (h.looked hcache').2 e he
      exact ⟨rows', htext, hlatest.later fun _ ⟨ttl, huses⟩ => absurd huses (hnot ttl)⟩
    · rcases MemoryCache.mem_set he with ⟨hkey, htext⟩ | ⟨hkey, he⟩
      · exact ⟨rows, htext, hkey ▸ Latest.now ⟨ttl, huses⟩ hfetched⟩
      · obtain ⟨rows', htext, hlatest⟩ := (h.looked hcache').2 e he
        exact ⟨rows', htext, hlatest.later fun hr => absurd hr.symm hkey⟩

/-- After a read the caches keep the rows of the latest reads again. -/
theorem Tidy.read (h : c.Tidy past w) (cmd : Command) (method : String) :
    c.Tidy (⟨cmd, method, w⟩ :: past) (c.fetchRows cmd method w).2 := by
  have hanswer : c.Answered cmd _ w (c.fetchRows cmd method w) :=
    fetchRows_answered (flightOf_none h.landed)
  have hlands : (c.fetchRows cmd method w).2.group.inflight = [] := fetchRows_lands h.landed
  have houtcome : (⟨cmd, method, w⟩ : Reading σ).outcome c = c.fetchRows cmd method w := rfl
  generalize c.fetchRows cmd method w = r at hanswer hlands houtcome
  cases hanswer with
  | kept _ quiet caches =>
    refine h.unfetched hlands caches fun rows ⟨_, _, hsent⟩ => ?_
    rw [houtcome] at hsent
    exact quiet.not_sentSince hsent
  | fetched _ sent caches =>
    exact h.fetched hlands ⟨_, by rw [houtcome], by rw [houtcome]; exact sent⟩ caches
  | broken _ failed caches =>
    refine h.unfetched hlands caches fun rows ⟨cmd', hdone, _⟩ => ?_
    rw [houtcome] at hdone
    exact failed _ _ hdone

theorem Reads.tidy (h : c.Reads past w) : c.Tidy past w := by
  induction h with
  | start w hcaches hw => exact .start hcaches hw
  | read cmd method _ ih => exact ih.read cmd method
  | newCache _ ih => exact ih.newCache
  | elsewhere _ hcaches hgroup ih => exact ih.elsewhere hcaches hgroup

/-! ## What reads return -/

/-- What the caches keep can be read, if writing rows and reading them gives the same. -/
theorem Tidy.readable (h : c.Tidy past w)
    (hround : ∀ r ∈ past, ∀ rows, r.Fetched c rows → readRows (storedRows rows) = .ok rows)
    (hcache : w.caches[number]? = some cache) : Readable cache := by
  intro e he
  obtain ⟨rows, htext, later, r, earlier, rfl, -, -, hfetched, -⟩ := h.latest hcache he
  exact ⟨rows, htext ▸ hround r (by simp) rows hfetched⟩

/-- The rows that a cache gives are the latest ones. -/
theorem Tidy.kept (h : c.Tidy past w)
    (hround : ∀ r ∈ past, ∀ rows, r.Fetched c rows → readRows (storedRows rows) = .ok rows)
    (hkept : c.kept cmd key w = some rows) :
    ∃ number ttl, c.cacheOf cmd = some (number, ttl) ∧ c.Latest past number key rows := by
  obtain ⟨⟨number, ttl⟩, huses, hfound⟩ := Option.bind_eq_some_iff.mp hkept
  obtain ⟨cache, hcache, htext⟩ := Option.bind_eq_some_iff.mp hfound
  obtain ⟨text, hget, hread⟩ := Option.bind_eq_some_iff.mp htext
  obtain ⟨e, he, rfl, rfl, -⟩ := MemoryCache.get_hit hget
  obtain ⟨rows', htext', hlatest⟩ := h.latest hcache he
  have hfetched : ∃ r ∈ past, r.Fetched c rows' := by
    obtain ⟨later, r, earlier, rfl, -, -, hr, -⟩ := hlatest
    exact ⟨r, by simp, hr⟩
  obtain ⟨r, hr, hfetched⟩ := hfetched
  rw [htext', hround r hr rows' hfetched] at hread
  cases hread
  exact ⟨number, ttl, huses, hlatest⟩

/-- Commands without a cache of their own use the cache of the connection. -/
theorem cacheOf_shared {ttl : Option Nat} (hown : cmd.cache.bind (·.own) = none)
    (huses : c.cacheOf cmd = some (number, ttl)) : number = 0 := by
  unfold cacheOf at huses
  split at huses
  · obtain ⟨policy, hpolicy, huses⟩ := Option.bind_eq_some_iff.mp huses
    rw [hpolicy, Option.bind_some] at hown
    obtain ⟨n, hn, heq⟩ := Option.bind_eq_some_iff.mp huses
    rw [hown, Option.none_or] at hn
    obtain ⟨_, _, rfl⟩ := Option.map_eq_some_iff.mp hn
    cases heq
    rfl
  · cases huses

/-- Reads through the caches of a connection. Let keys tell the reads of a run apart, and let rows
be read as they were written. Then a read that succeeds without being sent takes no connection and
returns the rows of the latest read like it that went through the same cache and reached a server;
a read that does not succeed drops at most what has expired; and a read for which caching is off
leaves the caches alone and is sent. All commands without a cache of their own use one cache. -/
theorem Reads.cache_sound (h : c.Reads past w) (cmd : Command) (method : String)
    (hkeys : ∀ r ∈ past, r.key c = c.resultKey method (cmd.rawSql c.connection) →
      r.Alike c cmd method)
    (hround : ∀ r ∈ past, ∀ rows, r.Fetched c rows → readRows (storedRows rows) = .ok rows) :
    (∀ rows cmd' w', c.fetchRows cmd method w = (.done (.ok rows, cmd'), w') →
      ¬ cmd.SentSince c.connection w.journal w'.journal →
      Quiet w w' ∧ ∃ number ttl, c.cacheOf cmd = some (number, ttl) ∧
        ∃ later r earlier, past = later ++ r :: earlier ∧
          r.Alike c cmd method ∧ r.Uses c number ∧ r.Fetched c rows ∧
          ∀ r' ∈ later, r'.Alike c cmd method → r'.Uses c number → ∀ rows', ¬ r'.Fetched c rows') ∧
    (∀ o w', c.fetchRows cmd method w = (o, w') → (∀ rows cmd', o ≠ .done (.ok rows, cmd')) →
      List.Forall₂ (MemoryCache.OnlyExpired w.clock) w.caches w'.caches) ∧
    (c.connection.config.enableQueryCache = false ∨ cmd.cache = none →
      ∀ o w', c.fetchRows cmd method w = (o, w') → w'.caches = w.caches ∧
        ∀ rows cmd', o = .done (.ok rows, cmd') →
          cmd.SentSince c.connection w.journal w'.journal) ∧
    (cmd.cache.bind (·.own) = none → ∀ number ttl, c.cacheOf cmd = some (number, ttl) →
      number = 0) := by
  have htidy := h.tidy
  have hanswer : c.Answered cmd _ w (c.fetchRows cmd method w) :=
    fetchRows_answered (flightOf_none htidy.landed)
  refine ⟨fun rows cmd' w' hr hnot => ?_, fun o w' hr hfailed => ?_, fun hoff o w' hr => ?_, ?_⟩
  · rw [hr] at hanswer
    cases hanswer with
    | kept found quiet _ =>
      obtain ⟨number, ttl, huses, later, r, earlier, rfl, hkey, hr, hfetched, hlater⟩ :=
        htidy.kept hround found
      refine ⟨quiet, number, ttl, huses, later, r, earlier, rfl, hkeys r (by simp) hkey, hr,
        hfetched, fun r' hr' halike => hlater r' hr' ?_⟩
      rw [Reading.key, halike.1, halike.2]
    | fetched _ sent _ => exact absurd sent hnot
    | broken _ failed _ => exact absurd rfl (failed _ _)
  · rw [hr] at hanswer
    have hd : ∀ {number : Nat} {cache : MemoryCache}, w.caches[number]? = some cache →
        cache.Distinct ∧ Readable cache :=
      fun hcache => ⟨htidy.distinct hcache, htidy.readable hround hcache⟩
    cases hanswer with
    | kept _ _ _ | fetched _ _ _ => exact absurd rfl (hfailed _ _)
    | broken missed _ caches => exact caches ▸ looked_onlyExpired missed hd
  · have hnone : c.cacheOf cmd = none := by
      rcases hoff with hoff | hoff <;> simp [cacheOf, hoff]
    rw [hr] at hanswer
    cases hanswer with
    | kept found _ _ => simp [Client.kept, hnone] at found
    | fetched _ sent caches =>
      exact ⟨by simpa [stored, looked, hnone] using caches, fun _ _ _ => sent⟩
    | broken _ failed caches =>
      refine ⟨by simpa [looked, hnone] using caches, fun _ _ ho => absurd ho (failed _ _)⟩
  · exact fun hown number ttl huses => cacheOf_shared hown huses

open Command (cachingRehearsal)

/-- A query whose rows go through the cache. -/
def cachedSelect : Command :=
  { Command.empty with
    sql := "SELECT id FROM t"
    cache := some ⟨none, none⟩ }

def unreadState : RunState Recorder :=
  .ofConnection cachingRehearsal.connection rehearsalState.servers

/-- The first read of the query. -/
def firstRead : Reading Recorder :=
  ⟨cachedSelect, "fetchAll", unreadState⟩

theorem firstRead_fetched {rows : List Row} (h : firstRead.Fetched cachingRehearsal rows) :
    rows = [] := by
  obtain ⟨cmd', hdone, -⟩ := h
  have hrows : (firstRead.outcome cachingRehearsal).1 = .done (.ok [], { cachedSelect with
      prepared := some ⟨"SELECT id FROM t", []⟩ }) := rfl
  rw [hrows] at hdone
  cases hdone
  rfl

/-- The state after the first read. -/
def readState : RunState Recorder :=
  (firstRead.outcome cachingRehearsal).2

theorem readState_caches : readState.caches =
    [⟨8, [⟨firstRead.key cachingRehearsal, storedRows [], none, 1⟩]⟩] := by
  rfl

theorem readState_kept :
    cachingRehearsal.kept cachedSelect (firstRead.key cachingRehearsal) readState = some [] := by
  have hcache : cachingRehearsal.cacheOf cachedSelect = some (0, none) := rfl
  have hread : readRows (storedRows []) = .ok [] := rfl
  simp [kept, hcache, readState_caches, MemoryCache.get, MemoryCache.find?, CacheEntry.isExpired,
    hread, Except.toOption]

/-- The second read of a query takes no connection and returns what the first one got. -/
theorem secondRead_kept :
    ∃ w', cachingRehearsal.fetchRows cachedSelect "fetchAll" readState =
        (.done (.ok [], cachedSelect), w') ∧ Quiet readState w' ∧
      ∃ number ttl, cachingRehearsal.cacheOf cachedSelect = some (number, ttl) ∧
        ∃ later r earlier, [firstRead] = later ++ r :: earlier ∧
          r.Alike cachingRehearsal cachedSelect "fetchAll" ∧ r.Uses cachingRehearsal number ∧
          r.Fetched cachingRehearsal [] ∧
          ∀ r' ∈ later, r'.Alike cachingRehearsal cachedSelect "fetchAll" →
            r'.Uses cachingRehearsal number → ∀ rows', ¬ r'.Fetched cachingRehearsal rows' := by
  have hreads : cachingRehearsal.Reads [firstRead] readState :=
    .read cachedSelect "fetchAll" (.start unreadState (by decide) rfl)
  have hkeys : ∀ r ∈ [firstRead], r.key cachingRehearsal =
      cachingRehearsal.resultKey "fetchAll" (cachedSelect.rawSql cachingRehearsal.connection) →
      r.Alike cachingRehearsal cachedSelect "fetchAll" := by
    intro r hr _
    rw [List.mem_singleton.mp hr]
    exact ⟨rfl, rfl⟩
  have hround : ∀ r ∈ [firstRead], ∀ rows, r.Fetched cachingRehearsal rows →
      readRows (storedRows rows) = .ok rows := by
    intro r hr rows hfetched
    rw [List.mem_singleton.mp hr] at hfetched
    rw [firstRead_fetched hfetched]
    rfl
  have hanswer : cachingRehearsal.Answered cachedSelect _ readState
      (cachingRehearsal.fetchRows cachedSelect "fetchAll" readState) :=
    fetchRows_answered rfl
  obtain ⟨w', hr, hquiet⟩ := hanswer.of_kept readState_kept
  exact ⟨w', hr, (Reads.cache_sound hreads cachedSelect "fetchAll" hkeys hround).1 [] cachedSelect
    w' hr hquiet.not_sentSince⟩

end Client

end QueryKit
