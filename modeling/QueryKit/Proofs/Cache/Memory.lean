import Mathlib.Data.List.Nodup
import QueryKit.Cache.Memory

/-!
# What a cache keeps

- `MemoryCache.Distinct`: no two entries have one key. Reading and writing keep it.
- `MemoryCache.Holds`: a read finds a text. `get_cases` says what a read can come to,
  `Distinct.mem_get` and `Distinct.get_keeps` which entries it leaves.
- `MemoryCache.OnlyExpired`: one cache is the other without some entries whose time has passed. A
  read that finds nothing changes no more (`get_miss`).
- `MemoryCache.victim?`: the entry that has to make room for a text under a new key; it is the one
  that was not used for longest (`victim?_eq_some`). `mem_set_iff` says which entries a set leaves,
  and `size_set_le` that there is room for them.
-/

namespace QueryKit.MemoryCache

variable {c : MemoryCache} {key text : String} {ttl : Option Nat} {now : Nat} {e f : CacheEntry}

/-- No two entries have one key. -/
def Distinct (c : MemoryCache) : Prop :=
  (c.entries.map (·.key)).Nodup

/-- A read of the key at this time finds a text. -/
def Holds (c : MemoryCache) (key : String) (now : Nat) : Prop :=
  (c.get key now).1.isSome

instance : Decidable (c.Holds key now) :=
  inferInstanceAs (Decidable (_ = true))

/-- The second cache is the first one without some entries whose time has passed. -/
structure OnlyExpired (now : Nat) (c c' : MemoryCache) : Prop where
  capacity : c'.capacity = c.capacity
  sublist : c'.entries.Sublist c.entries
  expired : ∀ e ∈ c.entries, e ∉ c'.entries → e.isExpired now = true

theorem OnlyExpired.refl : OnlyExpired now c c :=
  ⟨rfl, List.Sublist.refl _, fun _ he hnot => absurd he hnot⟩

/-- The key is absent, and the cache is full when what has expired is dropped. -/
def Crowded (c : MemoryCache) (key : String) (now : Nat) : Prop :=
  ¬ c.Holds key now ∧ c.capacity ≤ (c.dropExpired now).size

/-- The entry that makes room for a text under the key. -/
def victim? (c : MemoryCache) (key : String) (now : Nat) : Option CacheEntry :=
  if ((c.dropExpired now).find? key).isNone ∧ c.capacity ≤ (c.dropExpired now).size then
    leastRecent? (c.dropExpired now).entries
  else none

/-- The cache with room for a text under the key. -/
def roomFor (c : MemoryCache) (key : String) (now : Nat) : MemoryCache :=
  if ((c.dropExpired now).find? key).isNone ∧ c.capacity ≤ (c.dropExpired now).size then
    (c.dropExpired now).evict
  else c.dropExpired now

/-! ## Entries -/

theorem isExpired_congr (h : f.expires = e.expires) (now : Nat) :
    f.isExpired now = e.isExpired now := by
  rw [CacheEntry.isExpired, CacheEntry.isExpired, h]

theorem isExpired_eq_true :
    e.isExpired now = true ↔ ∃ deadline ∈ e.expires, deadline ≤ now := by
  cases hexpires : e.expires <;> simp [CacheEntry.isExpired, hexpires]

theorem find?_some (h : c.find? key = some e) : e ∈ c.entries ∧ e.key = key :=
  ⟨List.mem_of_find?_eq_some h, by simpa using List.find?_some h⟩

theorem find?_eq_none : c.find? key = none ↔ ∀ e ∈ c.entries, e.key ≠ key := by
  simp [find?]

theorem Distinct.eq_of_key (h : c.Distinct) (he : e ∈ c.entries) (hf : f ∈ c.entries)
    (hkey : e.key = f.key) : e = f :=
  List.inj_on_of_nodup_map h he hf hkey

theorem Distinct.find? (h : c.Distinct) (he : e ∈ c.entries) : c.find? e.key = some e := by
  cases hf : c.find? e.key with
  | none => exact absurd rfl (find?_eq_none.mp hf e he)
  | some f => rw [h.eq_of_key he (find?_some hf).1 (find?_some hf).2.symm]

theorem mem_dropExpired :
    e ∈ (c.dropExpired now).entries ↔ e ∈ c.entries ∧ e.isExpired now = false := by
  simp [dropExpired]

theorem mem_delete : e ∈ (c.delete key).entries ↔ e ∈ c.entries ∧ e.key ≠ key := by
  simp [delete]

theorem mem_touch : e ∈ (c.touch key now).entries ↔
    (e ∈ c.entries ∧ e.key ≠ key) ∨
      ∃ f ∈ c.entries, f.key = key ∧ e = { f with lastUse := now } := by
  simp only [touch, List.mem_map, beq_iff_eq]
  constructor
  · rintro ⟨f, hf, rfl⟩
    by_cases hkey : f.key = key
    · exact .inr ⟨f, hf, hkey, by rw [if_pos hkey]⟩
    · exact .inl ⟨by rwa [if_neg hkey], by rwa [if_neg hkey]⟩
  · rintro (⟨he, hkey⟩ | ⟨f, hf, hkey, rfl⟩)
    · exact ⟨e, he, if_neg hkey⟩
    · exact ⟨f, hf, if_pos hkey⟩

theorem Distinct.delete (h : c.Distinct) : (c.delete key).Distinct :=
  h.sublist (List.filter_sublist.map _)

theorem Distinct.touch (h : c.Distinct) : (c.touch key now).Distinct := by
  have hkeys : (c.touch key now).entries.map (·.key) = c.entries.map (·.key) := by
    simp only [MemoryCache.touch, List.map_map]
    refine List.map_congr_left fun e _ => ?_
    dsimp only [Function.comp]
    split <;> rfl
  unfold Distinct
  rw [hkeys]
  exact h

theorem size_delete_le (c : MemoryCache) (key : String) : (c.delete key).size ≤ c.size :=
  List.length_filter_le _ _

/-- An entry goes with its key. -/
theorem size_delete_lt (he : e ∈ c.entries) : (c.delete e.key).size < c.size :=
  List.length_filter_lt_length_iff_exists.mpr ⟨e, he, by simp⟩

theorem size_dropExpired_le : (c.dropExpired now).size ≤ c.size :=
  List.length_filter_le _ _

/-! ## Reading -/

/-- What a read can come to: no entry, an entry whose time has passed, or a text. -/
theorem get_cases (c : MemoryCache) (key : String) (now : Nat) :
    (c.find? key = none ∧ c.get key now = (none, c)) ∨
    ∃ e, c.find? key = some e ∧
      ((e.isExpired now = true ∧ c.get key now = (none, c.delete key)) ∨
        (e.isExpired now = false ∧ c.get key now = (some e.text, c.touch key now))) := by
  cases hfound : c.find? key with
  | none => exact .inl ⟨rfl, by simp [MemoryCache.get, hfound]⟩
  | some e =>
    refine .inr ⟨e, rfl, ?_⟩
    cases hexpired : e.isExpired now with
    | true => exact .inl ⟨rfl, by simp [MemoryCache.get, hfound, hexpired]⟩
    | false => exact .inr ⟨rfl, by simp [MemoryCache.get, hfound, hexpired]⟩

/-- A text that is found is the one of an entry whose time has not passed. -/
theorem get_hit (h : (c.get key now).1 = some text) :
    ∃ e ∈ c.entries, e.key = key ∧ e.text = text ∧ e.isExpired now = false := by
  rcases c.get_cases key now with ⟨-, hget⟩ | ⟨e, hfound, ⟨-, hget⟩ | ⟨hlive, hget⟩⟩ <;>
    rw [hget] at h
  · cases h
  · cases h
  · exact ⟨e, (find?_some hfound).1, (find?_some hfound).2, Option.some.inj h, hlive⟩

/-- Reading adds no entry and changes no text. -/
theorem mem_get (h : e ∈ (c.get key now).2.entries) :
    ∃ e' ∈ c.entries, e'.key = e.key ∧ e'.text = e.text := by
  rcases c.get_cases key now with ⟨-, hget⟩ | ⟨_, -, ⟨-, hget⟩ | ⟨-, hget⟩⟩ <;> rw [hget] at h
  · exact ⟨e, h, rfl, rfl⟩
  · exact ⟨e, (mem_delete.mp h).1, rfl, rfl⟩
  · rcases mem_touch.mp h with ⟨he, -⟩ | ⟨e', he', -, rfl⟩
    · exact ⟨e, he, rfl, rfl⟩
    · exact ⟨e', he', rfl, rfl⟩

theorem Distinct.get (h : c.Distinct) : (c.get key now).2.Distinct := by
  rcases c.get_cases key now with ⟨-, hget⟩ | ⟨_, -, ⟨-, hget⟩ | ⟨-, hget⟩⟩ <;> rw [hget]
  · exact h
  · exact h.delete
  · exact h.touch

theorem capacity_get : (c.get key now).2.capacity = c.capacity := by
  rcases c.get_cases key now with ⟨-, hget⟩ | ⟨_, -, ⟨-, hget⟩ | ⟨-, hget⟩⟩ <;> rw [hget] <;> rfl

theorem size_get_le (c : MemoryCache) (key : String) (now : Nat) :
    (c.get key now).2.size ≤ c.size := by
  rcases c.get_cases key now with ⟨-, hget⟩ | ⟨_, -, ⟨-, hget⟩ | ⟨-, hget⟩⟩
  · exact Nat.le_of_eq (congrArg (fun r => r.2.size) hget)
  · rw [hget]
    exact size_delete_le c key
  · rw [hget]
    simp [touch, size]

/-- A read that finds nothing drops at most an entry whose time has passed. -/
theorem get_miss (hd : c.Distinct) (h : (c.get key now).1 = none) :
    OnlyExpired now c (c.get key now).2 := by
  rcases c.get_cases key now with ⟨-, hget⟩ | ⟨e, hfound, ⟨hexpired, hget⟩ | ⟨-, hget⟩⟩ <;>
    rw [hget] at h ⊢
  · exact .refl
  · refine ⟨rfl, List.filter_sublist, fun e' he' hnot => ?_⟩
    -- the entry that goes has the key, and so it is the one that was found
    have hkey : e'.key = key := by
      by_contra hne
      exact hnot (mem_delete.mpr ⟨he', hne⟩)
    rwa [hd.eq_of_key he' (find?_some hfound).1 (hkey.trans (find?_some hfound).2.symm)]
  · cases h

/-- What a read finds is the text of the entry of the key, if its time has not passed. -/
theorem Distinct.get_eq_some (h : c.Distinct) : (c.get key now).1 = some text ↔
    ∃ e ∈ c.entries, e.key = key ∧ e.text = text ∧ e.isExpired now = false := by
  refine ⟨get_hit, ?_⟩
  rintro ⟨e, he, rfl, rfl, hlive⟩
  simp [MemoryCache.get, h.find? he, hlive]

theorem Distinct.holds_iff (h : c.Distinct) :
    c.Holds key now ↔ ∃ e ∈ c.entries, e.key = key ∧ e.isExpired now = false := by
  simp only [Holds, Option.isSome_iff_exists, h.get_eq_some]
  constructor
  · rintro ⟨text, e, he, hkey, -, hlive⟩
    exact ⟨e, he, hkey, hlive⟩
  · rintro ⟨e, he, hkey, hlive⟩
    exact ⟨e.text, e, he, hkey, rfl, hlive⟩

theorem Distinct.holds_entry (h : c.Distinct) (he : e ∈ c.entries) :
    c.Holds e.key now ↔ e.isExpired now = false := by
  rw [h.holds_iff]
  constructor
  · rintro ⟨f, hf, hkey, hlive⟩
    rwa [h.eq_of_key he hf hkey.symm]
  · exact fun hlive => ⟨e, he, rfl, hlive⟩

/-- An entry after a read was there before; its last use is the read, if the read found it. -/
theorem Distinct.mem_get (h : c.Distinct) (hf : f ∈ (c.get key now).2.entries) :
    ∃ e ∈ c.entries, e.key = f.key ∧ e.text = f.text ∧ e.expires = f.expires ∧
      ((f.key = key ∧ c.Holds key now ∧ f.lastUse = now) ∨
        (¬ (f.key = key ∧ c.Holds key now) ∧ f.lastUse = e.lastUse)) := by
  rcases c.get_cases key now with ⟨hnone, hget⟩ | ⟨e, hfound, ⟨-, hget⟩ | ⟨hlive, hget⟩⟩ <;>
    rw [hget] at hf
  · refine ⟨f, hf, rfl, rfl, rfl, .inr ⟨fun hkey => ?_, rfl⟩⟩
    exact find?_eq_none.mp hnone f hf hkey.1
  · obtain ⟨hf, hkey⟩ := mem_delete.mp hf
    exact ⟨f, hf, rfl, rfl, rfl, .inr ⟨fun h => hkey h.1, rfl⟩⟩
  · obtain ⟨he, rfl⟩ := find?_some hfound
    rcases mem_touch.mp hf with ⟨hf, hkey⟩ | ⟨e', he', hkey, rfl⟩
    · exact ⟨f, hf, rfl, rfl, rfl, .inr ⟨fun h => hkey h.1, rfl⟩⟩
    · exact ⟨e', he', rfl, rfl, rfl, .inl ⟨hkey, (h.holds_entry he).mpr hlive, rfl⟩⟩

/-- A read keeps the entries whose time has not passed. -/
theorem Distinct.get_keeps (h : c.Distinct) (he : e ∈ c.entries)
    (hlive : e.isExpired now = false) :
    ∃ f ∈ (c.get key now).2.entries, f.key = e.key ∧ f.expires = e.expires := by
  rcases c.get_cases key now with ⟨-, hget⟩ | ⟨e', hfound, ⟨hexpired, hget⟩ | ⟨-, hget⟩⟩ <;>
    rw [hget]
  · exact ⟨e, he, rfl, rfl⟩
  · obtain ⟨he', rfl⟩ := find?_some hfound
    refine ⟨e, mem_delete.mpr ⟨he, fun hkey => ?_⟩, rfl, rfl⟩
    rw [← h.eq_of_key he he' hkey, hlive] at hexpired
    cases hexpired
  · by_cases hkey : e.key = key
    · exact ⟨{ e with lastUse := now }, mem_touch.mpr (.inr ⟨e, he, hkey, rfl⟩), rfl, rfl⟩
    · exact ⟨e, mem_touch.mpr (.inl ⟨he, hkey⟩), rfl, rfl⟩

/-! ## Making room -/

theorem leastRecent?_eq_none : ∀ {l : List CacheEntry}, leastRecent? l = none → l = []
  | [], _ => rfl
  | e :: l, h => by
    unfold leastRecent? at h
    split at h
    · split at h <;> cases h
    · cases h

theorem leastRecent?_eq_some : ∀ {l : List CacheEntry} {e : CacheEntry}, leastRecent? l = some e →
    e ∈ l ∧ ∀ f ∈ l, e.lastUse ≤ f.lastUse
  | [], e, h => by
    cases h
  | g :: l, e, h => by
    unfold leastRecent? at h
    split at h
    · next f hf =>
      obtain ⟨hmem, hleast⟩ := leastRecent?_eq_some hf
      split at h
      · next hle =>
        obtain rfl := Option.some.inj h
        refine ⟨List.mem_cons_self, List.forall_mem_cons.mpr ⟨Nat.le_refl _, fun f' hf' => ?_⟩⟩
        exact Nat.le_trans hle (hleast f' hf')
      · next hlt =>
        obtain rfl := Option.some.inj h
        refine ⟨List.mem_cons_of_mem g hmem, List.forall_mem_cons.mpr ⟨?_, hleast⟩⟩
        exact Nat.le_of_not_le hlt
    · next hnone =>
      obtain rfl := Option.some.inj h
      rw [leastRecent?_eq_none hnone]
      exact ⟨List.mem_cons_self, List.forall_mem_cons.mpr ⟨Nat.le_refl _, by simp⟩⟩

theorem crowded_iff (h : c.Distinct) : c.Crowded key now ↔
    ((c.dropExpired now).find? key).isNone ∧ c.capacity ≤ (c.dropExpired now).size := by
  rw [Crowded, h.holds_iff, Option.isNone_iff_eq_none, find?_eq_none]
  simp only [mem_dropExpired, not_exists, not_and]
  exact and_congr_left' ⟨fun hno e he hkey => hno e he.1 hkey he.2,
    fun hno e he hkey hlive => hno e ⟨he, hlive⟩ hkey⟩

theorem victim?_eq_some (h : c.Distinct) (hv : c.victim? key now = some e) :
    c.Crowded key now ∧ e ∈ c.entries ∧ e.isExpired now = false ∧
      ∀ f ∈ c.entries, f.isExpired now = false → e.lastUse ≤ f.lastUse := by
  unfold victim? at hv
  split at hv
  · next hcrowded =>
    obtain ⟨hmem, hleast⟩ := leastRecent?_eq_some hv
    obtain ⟨he, hlive⟩ := mem_dropExpired.mp hmem
    exact ⟨(crowded_iff h).mpr hcrowded, he, hlive,
      fun f hf hflive => hleast f (mem_dropExpired.mpr ⟨hf, hflive⟩)⟩
  · cases hv

/-- A crowded cache that may keep anything has a victim. -/
theorem exists_victim (h : c.Distinct) (hcap : 1 ≤ c.capacity) (hcrowded : c.Crowded key now) :
    ∃ v, c.victim? key now = some v := by
  rw [victim?, if_pos ((crowded_iff h).mp hcrowded)]
  refine Option.ne_none_iff_exists'.mp fun hnone => ?_
  have hempty : (c.dropExpired now).size = 0 := by
    rw [size, leastRecent?_eq_none hnone, List.length_nil]
  have hfull : c.capacity ≤ (c.dropExpired now).size := hcrowded.2
  omega

theorem evict_sublist : c.evict.entries.Sublist c.entries := by
  unfold evict
  split
  · exact List.filter_sublist
  · exact List.Sublist.refl _

theorem roomFor_sublist : (c.roomFor key now).entries.Sublist c.entries := by
  unfold roomFor
  split
  · exact evict_sublist.trans List.filter_sublist
  · exact List.filter_sublist

theorem mem_roomFor : f ∈ (c.roomFor key now).entries ↔
    f ∈ c.entries ∧ f.isExpired now = false ∧
      ∀ v, c.victim? key now = some v → f.key ≠ v.key := by
  unfold roomFor victim?
  split
  · unfold evict
    split
    · next v hv => simp [mem_delete, mem_dropExpired, hv, and_assoc]
    · next hnone => simp [mem_dropExpired, hnone]
  · simp [mem_dropExpired]

/-- There is room for one more entry, if the cache may keep anything. -/
theorem size_roomFor_lt (hcap : 1 ≤ c.capacity) (hsize : c.size ≤ c.capacity) :
    ((c.roomFor key now).delete key).size < c.capacity := by
  have hlive : (c.dropExpired now).size ≤ c.capacity := Nat.le_trans size_dropExpired_le hsize
  unfold roomFor
  split
  · next hcrowded =>
    have hle := size_delete_le (c.dropExpired now).evict key
    have hevict : (c.dropExpired now).evict.size < (c.dropExpired now).size := by
      unfold evict
      cases hv : leastRecent? (c.dropExpired now).entries with
      | none =>
        have hempty : (c.dropExpired now).size = 0 := by
          rw [size, leastRecent?_eq_none hv, List.length_nil]
        omega
      | some v => exact size_delete_lt (leastRecent?_eq_some hv).1
    omega
  · next hroom =>
    cases hfound : (c.dropExpired now).find? key with
    | none =>
      have hle := size_delete_le (c.dropExpired now) key
      have hlt : ¬ c.capacity ≤ (c.dropExpired now).size := fun hfull =>
        hroom ⟨by rw [hfound]; rfl, hfull⟩
      omega
    | some e =>
      obtain ⟨he, rfl⟩ := find?_some hfound
      have hlt := size_delete_lt he
      omega

/-! ## Writing -/

theorem capacity_set : (c.set key text ttl now).capacity = c.capacity := by
  have hset : (c.set key text ttl now).capacity = (c.roomFor key now).capacity := rfl
  rw [hset, roomFor]
  split
  · unfold evict
    split <;> rfl
  · rfl

theorem entries_set : (c.set key text ttl now).entries =
    ((c.roomFor key now).delete key).entries ++ [⟨key, text, ttl.map (now + ·), now⟩] :=
  rfl

/-- After a set there are the new entry and the entries of other keys whose time has not passed,
without the victim. -/
theorem mem_set_iff : f ∈ (c.set key text ttl now).entries ↔
    f = ⟨key, text, ttl.map (now + ·), now⟩ ∨
      (f ∈ c.entries ∧ f.isExpired now = false ∧ f.key ≠ key ∧
        ∀ v, c.victim? key now = some v → f.key ≠ v.key) := by
  rw [entries_set, List.mem_append, List.mem_singleton, mem_delete, mem_roomFor]
  tauto

theorem mem_set (h : e ∈ (c.set key text ttl now).entries) :
    (e.key = key ∧ e.text = text) ∨ (e.key ≠ key ∧ e ∈ c.entries) := by
  rcases mem_set_iff.mp h with rfl | ⟨he, -, hkey, -⟩
  · exact .inl ⟨rfl, rfl⟩
  · exact .inr ⟨hkey, he⟩

theorem Distinct.set (h : c.Distinct) : (c.set key text ttl now).Distinct := by
  unfold Distinct
  rw [entries_set, List.map_append, List.nodup_append]
  refine ⟨h.sublist ((List.filter_sublist.trans roomFor_sublist).map _), by simp, ?_⟩
  intro k hk k' hk'
  obtain ⟨e, he, rfl⟩ := List.mem_map.mp hk
  rw [List.mem_singleton.mp hk']
  exact (mem_delete.mp he).2

theorem size_set_le (hcap : 1 ≤ c.capacity) (hsize : c.size ≤ c.capacity) :
    (c.set key text ttl now).size ≤ c.capacity := by
  rw [size, entries_set, List.length_append, List.length_singleton]
  exact size_roomFor_lt hcap hsize

end QueryKit.MemoryCache
