import QueryKit.Proofs.Cache.Memory

/-!
# What calls do to a cache

- `MemoryCache.Call`, `MemoryCache.Timed`: a call to a cache, and a call at a time. `Timed.run` is
  what it returns and the cache after it.
- `MemoryCache.Timed.Evicts`: a text could be found before a call and not after it, although the
  call neither writes nor removes its key.
- `Timed.mem_run`, `Timed.run_keeps`: all that a call can do to the entries. An entry after it was
  written or kept by the call, and an entry before it is kept, expired, asked away, or the victim.
- `Timed.evicts_iff`: what a call evicts is the victim.
-/

namespace QueryKit.MemoryCache

variable {c : MemoryCache} {key : String} {e f : CacheEntry}

/-- A call to a cache. -/
inductive Call where
  | get (key : String)
  | set (key text : String) (ttl : Option Nat)
  | delete (key : String)
  | clear

/-- The call writes or removes the key. -/
def Call.Concerns (key : String) : Call → Prop
  | .get _ => False
  | .set k _ _ => k = key
  | .delete k => k = key
  | .clear => True

/-- A call at a time. -/
structure Timed where
  time : Nat
  call : Call

/-- What a call returns, and the cache after it. -/
def Timed.run (t : Timed) (c : MemoryCache) : Option String × MemoryCache :=
  match t.call with
  | .get key => c.get key t.time
  | .set key text ttl => (none, c.set key text ttl t.time)
  | .delete key => (none, c.delete key)
  | .clear => (none, c.clear)

/-- A set or a successful get of the key. -/
def Timed.Uses (t : Timed) (c : MemoryCache) (key : String) : Prop :=
  match t.call with
  | .get k => k = key ∧ c.Holds key t.time
  | .set k _ _ => k = key
  | .delete _ => False
  | .clear => False

/-- The text of the key is lost by a call that neither writes nor removes it. -/
def Timed.Evicts (t : Timed) (c : MemoryCache) (key : String) : Prop :=
  c.Holds key t.time ∧ ¬ (t.run c).2.Holds key t.time ∧ ¬ t.call.Concerns key

theorem Distinct.run (h : c.Distinct) (t : Timed) : (t.run c).2.Distinct := by
  unfold Timed.run
  cases t.call with
  | get key => exact h.get
  | set key text ttl => exact h.set
  | delete key => exact h.delete
  | clear => exact List.nodup_nil

namespace Timed

variable {t : Timed}

theorem run_capacity (t : Timed) (c : MemoryCache) : (t.run c).2.capacity = c.capacity := by
  unfold Timed.run
  cases t.call with
  | get key => exact capacity_get
  | set key text ttl => exact capacity_set
  | delete key => rfl
  | clear => rfl

theorem run_size_le (t : Timed) (hcap : 1 ≤ c.capacity) (hsize : c.size ≤ c.capacity) :
    (t.run c).2.size ≤ c.capacity := by
  unfold Timed.run
  cases t.call with
  | get key => exact Nat.le_trans (size_get_le c key t.time) hsize
  | set key text ttl => exact size_set_le hcap hsize
  | delete key => exact Nat.le_trans (size_delete_le c key) hsize
  | clear => exact Nat.zero_le _

/-- Where an entry after a call comes from. -/
theorem mem_run (h : c.Distinct) (hf : f ∈ (t.run c).2.entries) :
    (∃ ttl, t.call = .set f.key f.text ttl ∧ f.expires = ttl.map (t.time + ·) ∧
      f.lastUse = t.time) ∨
    ∃ e ∈ c.entries, e.key = f.key ∧ e.text = f.text ∧ e.expires = f.expires ∧
      ¬ t.call.Concerns f.key ∧
      ((t.Uses c f.key ∧ f.lastUse = t.time) ∨ (¬ t.Uses c f.key ∧ f.lastUse = e.lastUse)) := by
  unfold Timed.run at hf
  unfold Timed.Uses
  cases hcall : t.call with
  | get key =>
    rw [hcall] at hf
    obtain ⟨e, he, hkey, htext, hexpires, huse⟩ := h.mem_get hf
    refine .inr ⟨e, he, hkey, htext, hexpires, not_false, ?_⟩
    rcases huse with ⟨rfl, hholds, huse⟩ | ⟨hno, huse⟩
    · exact .inl ⟨⟨rfl, hholds⟩, huse⟩
    · refine .inr ⟨?_, huse⟩
      rintro ⟨rfl, hholds⟩
      exact hno ⟨rfl, hholds⟩
  | set key text ttl =>
    rw [hcall] at hf
    rcases mem_set_iff.mp hf with rfl | ⟨hf, -, hkey, -⟩
    · exact .inl ⟨ttl, rfl, rfl, rfl⟩
    · exact .inr ⟨f, hf, rfl, rfl, rfl, hkey.symm, .inr ⟨hkey.symm, rfl⟩⟩
  | delete key =>
    rw [hcall] at hf
    obtain ⟨hf, hkey⟩ := mem_delete.mp hf
    exact .inr ⟨f, hf, rfl, rfl, rfl, hkey.symm, .inr ⟨not_false, rfl⟩⟩
  | clear =>
    rw [hcall] at hf
    cases hf

/-- What becomes of an entry whose time has not passed in a call that is not about its key. -/
theorem run_keeps (h : c.Distinct) (he : e ∈ c.entries) (hlive : e.isExpired t.time = false)
    (hother : ¬ t.call.Concerns e.key) :
    (∃ f ∈ (t.run c).2.entries, f.key = e.key ∧ f.expires = e.expires) ∨
    ∃ key text ttl v, t.call = .set key text ttl ∧ c.victim? key t.time = some v ∧
      v.key = e.key := by
  unfold Timed.run
  cases hcall : t.call with
  | get key => exact .inl (h.get_keeps he hlive)
  | set key text ttl =>
    rw [hcall] at hother
    by_cases hvictim : ∀ v, c.victim? key t.time = some v → e.key ≠ v.key
    · exact .inl ⟨e, mem_set_iff.mpr (.inr ⟨he, hlive, Ne.symm hother, hvictim⟩), rfl, rfl⟩
    · push Not at hvictim
      obtain ⟨v, hv, hkey⟩ := hvictim
      exact .inr ⟨key, text, ttl, v, rfl, hv, hkey.symm⟩
  | delete key =>
    rw [hcall] at hother
    exact .inl ⟨e, mem_delete.mpr ⟨he, Ne.symm hother⟩, rfl, rfl⟩
  | clear =>
    rw [hcall] at hother
    exact absurd trivial hother

/-- What a call evicts is the entry that has to make room. -/
theorem evicts_iff (h : c.Distinct) : t.Evicts c key ↔
    ∃ k text ttl v, t.call = .set k text ttl ∧ c.victim? k t.time = some v ∧ v.key = key := by
  constructor
  · rintro ⟨hholds, hlost, hother⟩
    obtain ⟨e, he, rfl, hlive⟩ := h.holds_iff.mp hholds
    refine (run_keeps h he hlive hother).resolve_left ?_
    rintro ⟨f, hf, hkey, hexpires⟩
    refine hlost ((h.run t).holds_iff.mpr ⟨f, hf, hkey, ?_⟩)
    rw [isExpired_congr hexpires, hlive]
  · rintro ⟨k, text, ttl, v, hcall, hv, rfl⟩
    obtain ⟨hcrowded, hmem, hlive, -⟩ := victim?_eq_some h hv
    have hholds : c.Holds v.key t.time := (h.holds_entry hmem).mpr hlive
    have hkey : k ≠ v.key := fun heq => hcrowded.1 (heq ▸ hholds)
    refine ⟨hholds, fun hlater => ?_, ?_⟩
    · obtain ⟨f, hf, hfkey, -⟩ := (h.run t).holds_iff.mp hlater
      unfold Timed.run at hf
      rw [hcall] at hf
      rcases mem_set_iff.mp hf with rfl | ⟨-, -, -, hno⟩
      · exact hkey hfkey
      · exact hno v hv hfkey
    · rw [hcall]
      exact hkey

end Timed

end QueryKit.MemoryCache
