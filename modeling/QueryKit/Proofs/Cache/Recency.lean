import QueryKit.Proofs.Cache.History

/-!
# A cache along its calls

- `after`: the cache after calls, the latest first; `Ordered`: each call is later than the ones
  before it.
- `Latest`: what the latest set of a key wrote, if nobody deleted, cleared or evicted it since.
  `LastUse`: the time of the latest set or successful get of a key.
- `Recorded`: the entries of the cache are what the calls say. It holds after any calls
  (`recorded_after`), since each call keeps it (`Recorded.call`).
- `bounded_lru`: how many entries there are, what a read finds, and what a call evicts.
-/

namespace QueryKit.MemoryCache

/-- The cache after calls, the latest first. -/
def after (capacity : Nat) : List Timed → MemoryCache
  | [] => .ofCapacity capacity
  | t :: past => (t.run (after capacity past)).2

/-- Each call is later than the ones before it. -/
def Ordered (past : List Timed) : Prop :=
  past.Pairwise fun t earlier => earlier.time < t.time

/-- What the latest set of a key wrote, and when that expires. Nobody deleted, cleared or evicted it
since. -/
inductive Latest (capacity : Nat) (key : String) : List Timed → String → Option Nat → Prop
  | set {past : List Timed} {now : Nat} {text : String} {ttl : Option Nat} :
    Latest capacity key (⟨now, .set key text ttl⟩ :: past) text (ttl.map (now + ·))
  | later {past : List Timed} {t : Timed} {text : String} {expires : Option Nat} :
    Latest capacity key past text expires → ¬ t.call.Concerns key →
    ¬ t.Evicts (after capacity past) key → Latest capacity key (t :: past) text expires

/-- The time of the latest set or successful get of a key. -/
inductive LastUse (capacity : Nat) (key : String) : List Timed → Nat → Prop
  | now {past : List Timed} {t : Timed} : t.Uses (after capacity past) key →
    LastUse capacity key (t :: past) t.time
  | later {past : List Timed} {t : Timed} {time : Nat} : LastUse capacity key past time →
    ¬ t.Uses (after capacity past) key → LastUse capacity key (t :: past) time

/-- Of the keys under which a text can be found, this one was not used for longest. -/
def Oldest (capacity : Nat) (past : List Timed) (key : String) (now : Nat) : Prop :=
  (after capacity past).Holds key now ∧
  ∃ time, LastUse capacity key past time ∧
    ∀ other, other ≠ key → (after capacity past).Holds other now →
      ∃ time', LastUse capacity other past time' ∧ time < time'

variable {capacity : Nat} {past : List Timed} {t : Timed} {c : MemoryCache} {key key' : String}
  {now time time' : Nat}

/-! ## Histories -/

theorem Latest.unique {text text' : String} {expires expires' : Option Nat}
    (h : Latest capacity key past text expires) (h' : Latest capacity key past text' expires') :
    text = text' ∧ expires = expires' := by
  induction h with
  | set =>
    cases h' with
    | set => exact ⟨rfl, rfl⟩
    | later _ hother => exact absurd rfl hother
  | later _ hother _ ih =>
    cases h' with
    | set => exact absurd rfl hother
    | later h' => exact ih h'

theorem LastUse.unique (h : LastUse capacity key past time)
    (h' : LastUse capacity key past time') : time = time' := by
  induction h with
  | now huse =>
    cases h' with
    | now => rfl
    | later _ hnot => exact absurd huse hnot
  | later _ hnot ih =>
    cases h' with
    | now huse => exact absurd huse hnot
    | later h' => exact ih h'

theorem LastUse.exists_call (h : LastUse capacity key past time) : ∃ t ∈ past, t.time = time := by
  induction h with
  | now => exact ⟨_, List.mem_cons_self, rfl⟩
  | later _ _ ih =>
    obtain ⟨t, ht, htime⟩ := ih
    exact ⟨t, List.mem_cons_of_mem _ ht, htime⟩

/-- A call uses at most one key. -/
theorem Timed.Uses.key_eq (h : t.Uses c key) (h' : t.Uses c key') : key = key' := by
  unfold Timed.Uses at h h'
  cases hcall : t.call with
  | get k =>
    rw [hcall] at h h'
    exact h.1.symm.trans h'.1
  | set k text ttl =>
    rw [hcall] at h h'
    exact h.symm.trans h'
  | delete k =>
    rw [hcall] at h
    cases h
  | clear =>
    rw [hcall] at h
    cases h

/-- No two keys were last used at one time. -/
theorem LastUse.key_eq (hpast : Ordered past) (h : LastUse capacity key past time)
    (h' : LastUse capacity key' past time) : key = key' := by
  induction h with
  | now huse =>
    cases h' with
    | now huse' => exact huse.key_eq huse'
    | later h' =>
      obtain ⟨t, ht, htime⟩ := h'.exists_call
      exact absurd htime (Nat.ne_of_lt ((List.pairwise_cons.mp hpast).1 t ht))
  | later h _ ih =>
    cases h' with
    | now =>
      obtain ⟨t, ht, htime⟩ := h.exists_call
      exact absurd htime (Nat.ne_of_lt ((List.pairwise_cons.mp hpast).1 t ht))
    | later h' => exact ih (List.pairwise_cons.mp hpast).2 h'

/-! ## What the entries record -/

/-- The entries of a cache are what the calls say. -/
structure Recorded (capacity : Nat) (past : List Timed) (c : MemoryCache) : Prop where
  bound : c.capacity = capacity
  size : c.size ≤ capacity
  distinct : c.Distinct
  latest : ∀ e ∈ c.entries, Latest capacity e.key past e.text e.expires
  lastUse : ∀ e ∈ c.entries, LastUse capacity e.key past e.lastUse
  /-- What was written and has no entry has expired. -/
  complete : ∀ {key text expires}, Latest capacity key past text expires →
    (∃ e ∈ c.entries, e.key = key) ∨ ∃ deadline ∈ expires, ∃ t ∈ past, deadline ≤ t.time

theorem recorded_empty (capacity : Nat) : Recorded capacity [] (after capacity []) where
  bound := rfl
  size := Nat.zero_le _
  distinct := List.nodup_nil
  latest := by simp [after, ofCapacity]
  lastUse := by simp [after, ofCapacity]
  complete := by
    intro key text expires h
    cases h

/-- An entry that a call leaves is not evicted by it. -/
theorem not_evicts {e f : CacheEntry} (h : c.Distinct) (he : e ∈ c.entries)
    (hf : f ∈ (t.run c).2.entries) (hkey : e.key = f.key) (hexpires : e.expires = f.expires) :
    ¬ t.Evicts c f.key := by
  rintro ⟨hholds, hlost, -⟩
  refine hlost (((h.run t).holds_entry hf).mpr ?_)
  rw [← isExpired_congr hexpires]
  exact (h.holds_entry he).mp (hkey ▸ hholds)

theorem Recorded.roomy (h : Recorded capacity past c) (hcap : 1 ≤ capacity) : 1 ≤ c.capacity := by
  rw [h.bound]
  exact hcap

/-- Each call keeps the record. -/
theorem Recorded.call (h : Recorded capacity past (after capacity past)) (hcap : 1 ≤ capacity)
    (t : Timed) : Recorded capacity (t :: past) (after capacity (t :: past)) where
  bound := (t.run_capacity _).trans h.bound
  size := by
    have hsize : (after capacity past).size ≤ (after capacity past).capacity := by
      rw [h.bound]
      exact h.size
    have hrun := t.run_size_le (h.roomy hcap) hsize
    rwa [h.bound] at hrun
  distinct := h.distinct.run t
  latest := by
    intro f hf
    rcases Timed.mem_run h.distinct hf with ⟨ttl, hcall, hexpires, -⟩ |
      ⟨e, he, hkey, htext, hexpires, hother, -⟩
    · obtain ⟨now, call⟩ := t
      obtain rfl : call = .set f.key f.text ttl := hcall
      rw [hexpires]
      exact .set
    · have hlatest := h.latest e he
      rw [hkey, htext, hexpires] at hlatest
      exact hlatest.later hother (not_evicts h.distinct he hf hkey hexpires)
  lastUse := by
    intro f hf
    rcases Timed.mem_run h.distinct hf with ⟨ttl, hcall, -, huse⟩ |
      ⟨e, he, hkey, -, -, -, ⟨huses, huse⟩ | ⟨hnot, huse⟩⟩
    · rw [huse]
      refine .now ?_
      rw [Timed.Uses, hcall]
    · rw [huse]
      exact .now huses
    · rw [huse]
      exact .later (hkey ▸ h.lastUse e he) hnot
  complete := by
    intro key text expires hlatest
    cases hlatest with
    | set => exact .inl ⟨_, mem_set_iff.mpr (.inl rfl), rfl⟩
    | later hlatest hother hkept =>
      rcases h.complete hlatest with ⟨e, he, rfl⟩ | ⟨deadline, hdeadline, u, hu, hle⟩
      · obtain ⟨rfl, rfl⟩ := hlatest.unique (h.latest e he)
        by_cases hlive : e.isExpired t.time = true
        · obtain ⟨deadline, hdeadline, hle⟩ := isExpired_eq_true.mp hlive
          exact .inr ⟨deadline, hdeadline, t, List.mem_cons_self, hle⟩
        · -- it could be found before the call, and so it can after it, or it was evicted
          have hholds := (h.distinct.holds_entry he).mpr (Bool.not_eq_true _ ▸ hlive)
          have hstill : (t.run (after capacity past)).2.Holds e.key t.time := by
            by_contra hlost
            exact hkept ⟨hholds, hlost, hother⟩
          obtain ⟨f, hf, hkey, -⟩ := (h.distinct.run t).holds_iff.mp hstill
          exact .inl ⟨f, hf, hkey⟩
      · exact .inr ⟨deadline, hdeadline, u, List.mem_cons_of_mem t hu, hle⟩

theorem recorded_after (hcap : 1 ≤ capacity) :
    ∀ past : List Timed, Recorded capacity past (after capacity past)
  | [] => recorded_empty capacity
  | t :: past => (recorded_after hcap past).call hcap t

/-! ## Reads -/

theorem Recorded.get_eq_some {text : String} (h : Recorded capacity past c)
    (hnow : ∀ t ∈ past, t.time < now) : (c.get key now).1 = some text ↔
      ∃ expires, Latest capacity key past text expires ∧ ∀ deadline ∈ expires, now < deadline := by
  rw [h.distinct.get_eq_some]
  constructor
  · rintro ⟨e, he, rfl, rfl, hlive⟩
    refine ⟨e.expires, h.latest e he, fun deadline hdeadline => ?_⟩
    by_contra hpassed
    have hexpired := isExpired_eq_true.mpr ⟨deadline, hdeadline, Nat.le_of_not_lt hpassed⟩
    rw [hlive] at hexpired
    cases hexpired
  · rintro ⟨expires, hlatest, hlive⟩
    rcases h.complete hlatest with ⟨e, he, rfl⟩ | ⟨deadline, hdeadline, t, ht, hle⟩
    · obtain ⟨rfl, rfl⟩ := hlatest.unique (h.latest e he)
      refine ⟨e, he, rfl, rfl, Bool.eq_false_iff.mpr fun hexpired => ?_⟩
      obtain ⟨deadline, hdeadline, hle⟩ := isExpired_eq_true.mp hexpired
      exact absurd (hlive deadline hdeadline) (Nat.not_lt.mpr hle)
    · have hlater := hlive deadline hdeadline
      have hpassed := hnow t ht
      omega

/-! ## Evictions -/

/-- The entry that has to make room is the one whose last use is oldest. -/
theorem Recorded.oldest_of_victim {e : CacheEntry} {new : String}
    (h : Recorded capacity past (after capacity past)) (hpast : Ordered past)
    (hvictim : (after capacity past).victim? new now = some e) :
    Oldest capacity past e.key now := by
  obtain ⟨-, he, hlive, hleast⟩ := victim?_eq_some h.distinct hvictim
  refine ⟨(h.distinct.holds_entry he).mpr hlive, e.lastUse, h.lastUse e he,
    fun other hother hholds => ?_⟩
  obtain ⟨f, hf, rfl, hflive⟩ := h.distinct.holds_iff.mp hholds
  refine ⟨f.lastUse, h.lastUse f hf, Nat.lt_of_le_of_ne (hleast f hf hflive) fun heq => hother ?_⟩
  exact (h.lastUse f hf).key_eq hpast (heq ▸ h.lastUse e he)

/-- The key whose last use is oldest is the one of the entry that has to make room. -/
theorem Recorded.victim_of_oldest {e : CacheEntry} {new : String}
    (h : Recorded capacity past (after capacity past)) (hold : Oldest capacity past key now)
    (hvictim : (after capacity past).victim? new now = some e) : e.key = key := by
  obtain ⟨-, he, hlive, hleast⟩ := victim?_eq_some h.distinct hvictim
  obtain ⟨hholds, time, huse, hothers⟩ := hold
  obtain ⟨f, hf, rfl, hflive⟩ := h.distinct.holds_iff.mp hholds
  by_contra hne
  obtain ⟨time', huse', hlt⟩ := hothers e.key hne ((h.distinct.holds_entry he).mpr hlive)
  obtain rfl := huse.unique (h.lastUse f hf)
  obtain rfl := huse'.unique (h.lastUse e he)
  exact absurd hlt (Nat.not_lt.mpr (hleast f hf hflive))

/-- A cache that may keep anything, after any calls at increasing times. It has no more entries than
it may have. A read finds what the latest set of its key wrote, if nobody deleted, cleared or
evicted it since and its time has not passed, and nothing otherwise. A call evicts a key only if it
sets one that is absent while the cache is full of texts whose time has not passed, and then just
the key among these whose last set or successful get is oldest. -/
theorem bounded_lru (hcap : 1 ≤ capacity) (hpast : Ordered past) :
    (after capacity past).size ≤ capacity ∧
    ∀ now, (∀ t ∈ past, t.time < now) →
      (∀ key text, ((after capacity past).get key now).1 = some text ↔
        ∃ expires, Latest capacity key past text expires ∧
          ∀ deadline ∈ expires, now < deadline) ∧
      (∀ call key, Timed.Evicts ⟨now, call⟩ (after capacity past) key ↔
        (∃ new text ttl, call = .set new text ttl ∧ (after capacity past).Crowded new now) ∧
          Oldest capacity past key now) ∧
      ∀ new text ttl, (after capacity past).Crowded new now →
        ∃! key, Timed.Evicts ⟨now, .set new text ttl⟩ (after capacity past) key := by
  have h := recorded_after hcap past
  refine ⟨h.size, fun now hnow => ⟨fun key text => h.get_eq_some hnow, fun call key => ?_,
    fun new text ttl hcrowded => ?_⟩⟩
  · rw [Timed.evicts_iff h.distinct]
    constructor
    · rintro ⟨new, text, ttl, v, hcall, hvictim, rfl⟩
      exact ⟨⟨new, text, ttl, hcall, (victim?_eq_some h.distinct hvictim).1⟩,
        h.oldest_of_victim hpast hvictim⟩
    · rintro ⟨⟨new, text, ttl, hcall, hcrowded⟩, hold⟩
      obtain ⟨v, hvictim⟩ := exists_victim h.distinct (h.roomy hcap) hcrowded
      exact ⟨new, text, ttl, v, hcall, hvictim, h.victim_of_oldest hold hvictim⟩
  · obtain ⟨v, hvictim⟩ := exists_victim h.distinct (h.roomy hcap) hcrowded
    refine ⟨v.key, (Timed.evicts_iff h.distinct).mpr ⟨new, text, ttl, v, rfl, hvictim, rfl⟩,
      fun key hevicts => ?_⟩
    obtain ⟨new', text', ttl', v', hcall, hvictim', rfl⟩ := (Timed.evicts_iff h.distinct).mp hevicts
    cases hcall
    rw [hvictim] at hvictim'
    rw [Option.some.inj hvictim']

/-- Calls to a small cache: a text that expires, two that stay, and a read of the first of these. -/
def fewCalls : List Timed :=
  [⟨4, .get "a"⟩, ⟨3, .set "b" "2" none⟩, ⟨2, .set "a" "1" none⟩, ⟨1, .set "x" "0" (some 1)⟩]

/-- The expired text makes room for a new one, and then the text that was not read does. -/
theorem fewCalls_evict :
    1 ≤ 2 ∧ Ordered fewCalls ∧ (∀ t ∈ fewCalls, t.time < 5) ∧
      (∃ expires, Latest 2 "a" fewCalls "1" expires ∧ ∀ deadline ∈ expires, 5 < deadline) ∧
      (after 2 fewCalls).Crowded "c" 5 ∧
      Timed.Evicts ⟨5, .set "c" "3" none⟩ (after 2 fewCalls) "b" ∧ Oldest 2 fewCalls "b" 5 := by
  have hpast : Ordered fewCalls := by simp [Ordered, fewCalls]
  have hnow : ∀ t ∈ fewCalls, t.time < 5 := by simp [fewCalls]
  have hevicts : Timed.Evicts ⟨5, .set "c" "3" none⟩ (after 2 fewCalls) "b" :=
    ⟨by decide, by decide, by simp [Call.Concerns]⟩
  obtain ⟨-, hlater⟩ := bounded_lru (by decide : 1 ≤ 2) hpast
  obtain ⟨hreads, hevictions, -⟩ := hlater 5 hnow
  obtain ⟨⟨new, text, ttl, hcall, hcrowded⟩, hold⟩ := (hevictions _ "b").mp hevicts
  cases hcall
  exact ⟨by decide, hpast, hnow, (hreads "a" "1").mp rfl, hcrowded, hevicts, hold⟩

end QueryKit.MemoryCache
