import Mathlib.Data.List.Nodup
import QueryKit.Proofs.Key.Lookup
import QueryKit.Proofs.Text.Delimited

/-!
# What keyed results keep

- `Keyed.Tracks`: how the entries and the places follow from the items that were put in. The empty
  one starts it (`tracks_empty`), `put` keeps it (`Tracks.put`), and so it holds after any items
  (`tracks_putAll`).
- `mem_keyed`: an entry is the last item of its key.
- `Query.populate_keyed`: the keys of the rows of a result, and which row stands under which key.
-/

namespace QueryKit

variable {α : Type} {id : String} {a : α}

/-! ## Lists -/

theorem eraseDups_concat (l : List String) (s : String) :
    (l ++ [s]).eraseDups = if s ∈ l then l.eraseDups else l.eraseDups ++ [s] := by
  rw [List.eraseDups_append]
  split
  · next hmem => simp [List.removeAll, hmem]
  · next hmem => simp [List.removeAll, hmem, List.eraseDups_cons]

theorem idxOf?_concat (l : List String) (s t : String) :
    (l ++ [s]).idxOf? t = (l.idxOf? t).or (if t = s then some l.length else none) := by
  rw [List.idxOf?, List.findIdx?_append, ← List.idxOf?]
  by_cases ht : t = s
  · simp [ht]
  · simp [ht, Ne.symm ht]

theorem map_fst_modify (l : List (String × α)) (i : Nat) (a : α) :
    (l.modify i fun old => (old.1, a)).map Prod.fst = l.map Prod.fst := by
  refine List.ext_getElem? fun j => ?_
  rw [List.getElem?_map, List.getElem?_map, List.getElem?_modify]
  cases l[j]? with
  | none => rfl
  | some e =>
    simp only [Option.map_eq_map, Option.map_some]
    split <;> rfl

/-- What is found after the item at the place of a key was replaced. -/
theorem lookup_modify (j : String) : ∀ (l : List (String × α)) (i : Nat),
    (l.map Prod.fst).idxOf? id = some i →
      (l.modify i fun old => (old.1, a)).lookup j = if j = id then some a else l.lookup j
  | [], i, h => by
    simp at h
  | (k, b) :: l, i, h => by
    rw [List.map_cons, List.idxOf?_cons] at h
    by_cases hk : k = id
    · obtain rfl : 0 = i := by simpa [hk] using h
      rw [List.modify_cons, if_pos rfl, lookup_cons_if, lookup_cons_if, hk]
      split <;> rfl
    · obtain ⟨i, hi, rfl⟩ : ∃ i', (l.map Prod.fst).idxOf? id = some i' ∧ i' + 1 = i := by
        simpa [hk] using h
      have ih := lookup_modify j l i hi
      rw [List.modify_cons, if_neg (Nat.succ_ne_zero i), Nat.add_sub_cancel, lookup_cons_if,
        lookup_cons_if, ih]
      by_cases hj : j = k
      · rw [if_pos hj, if_pos hj, if_neg (hj ▸ hk)]
      · rw [if_neg hj, if_neg hj]

theorem lookup_reverse_concat (l : List (String × α)) (a : α) (j : String) :
    (l ++ [(id, a)]).reverse.lookup j = if j = id then some a else l.reverse.lookup j := by
  rw [List.reverse_append, List.reverse_singleton, List.singleton_append, lookup_cons_if]

/-! ## Entries and places -/

namespace Keyed

variable {k : Keyed α} {seen : List (String × α)}

/-- The keys of the entries. -/
def keys (k : Keyed α) : List String :=
  k.entries.map Prod.fst

/-- The entries keep the last item of each key in the order in which the keys came, and the places
say where the keys stand. -/
structure Tracks (k : Keyed α) (seen : List (String × α)) : Prop where
  distinct : k.keys.Nodup
  order : k.keys = (seen.map Prod.fst).eraseDups
  places : ∀ id, k.places.lookup id = k.keys.idxOf? id
  items : ∀ id, k.entries.lookup id = seen.reverse.lookup id

theorem tracks_empty : (empty : Keyed α).Tracks [] :=
  ⟨List.nodup_nil, rfl, fun _ => rfl, fun _ => rfl⟩

theorem Tracks.mem_keys (h : k.Tracks seen) : id ∈ k.keys ↔ id ∈ seen.map Prod.fst := by
  rw [h.order, List.mem_eraseDups]

/-- A new key goes to the end. -/
theorem Tracks.put_new (h : k.Tracks seen) (hnew : id ∉ k.keys) :
    (⟨k.entries ++ [(id, a)], (id, k.entries.length) :: k.places⟩ : Keyed α).Tracks
      (seen ++ [(id, a)]) := by
  have hkeys : (⟨k.entries ++ [(id, a)], (id, k.entries.length) :: k.places⟩ : Keyed α).keys =
      k.keys ++ [id] := by
    simp [keys]
  refine ⟨?_, ?_, fun j => ?_, fun j => ?_⟩
  · rw [hkeys, List.nodup_append]
    refine ⟨h.distinct, List.nodup_singleton id, fun x hx y hy => ?_⟩
    rw [List.mem_singleton.mp hy]
    exact fun hxy => hnew (hxy ▸ hx)
  · rw [hkeys, h.order, List.map_append, List.map_singleton, eraseDups_concat,
      if_neg (fun hmem => hnew (h.mem_keys.mpr hmem))]
  · have hnone : k.keys.idxOf? id = none := List.idxOf?_eq_none_iff.mpr hnew
    rw [hkeys, lookup_cons_if, idxOf?_concat, h.places j]
    by_cases hj : j = id
    · rw [hj, hnone]
      simp [keys]
    · simp [hj]
  · have hnone : k.entries.lookup id = none := by
      rw [List.lookup_eq_none_iff]
      intro e he
      exact bne_iff_ne.mpr fun heq => hnew (heq ▸ List.mem_map_of_mem he)
    rw [lookup_reverse_concat, lookup_append_single, ← h.items j]
    by_cases hj : j = id
    · simp [hj, hnone]
    · simp [hj]

/-- A known key keeps its place and gets the item. -/
theorem Tracks.put_known (h : k.Tracks seen) {i : Nat} (hplace : k.keys.idxOf? id = some i) :
    ({ k with entries := k.entries.modify i fun old => (old.1, a) } : Keyed α).Tracks
      (seen ++ [(id, a)]) := by
  have hkeys : ({ k with entries := k.entries.modify i fun old => (old.1, a) } : Keyed α).keys =
      k.keys :=
    map_fst_modify k.entries i a
  have hmem : id ∈ seen.map Prod.fst := by
    by_contra hnot
    rw [List.idxOf?_eq_none_iff.mpr fun hkey => hnot (h.mem_keys.mp hkey)] at hplace
    cases hplace
  refine ⟨hkeys ▸ h.distinct, ?_, fun j => hkeys ▸ h.places j, fun j => ?_⟩
  · rw [hkeys, h.order, List.map_append, List.map_singleton, eraseDups_concat, if_pos hmem]
  · rw [lookup_modify j k.entries i hplace, lookup_reverse_concat, h.items j]

theorem Tracks.put (h : k.Tracks seen) (e : String × α) : (k.put e).Tracks (seen ++ [e]) := by
  unfold Keyed.put
  rw [h.places e.1]
  cases hplace : k.keys.idxOf? e.1 with
  | none => exact h.put_new (List.idxOf?_eq_none_iff.mp hplace)
  | some i => exact h.put_known hplace

theorem Tracks.putAll (h : k.Tracks seen) (items : List (String × α)) :
    (k.putAll items).Tracks (seen ++ items) := by
  induction items generalizing k seen with
  | nil => simpa [Keyed.putAll] using h
  | cons e items ih => simpa [Keyed.putAll] using ih (h.put e)

theorem tracks_putAll (items : List (String × α)) : (empty.putAll items).Tracks items := by
  simpa using tracks_empty.putAll items

end Keyed

/-! ## Keyed items -/

variable {items : List (String × α)}

theorem keys_keyed (items : List (String × α)) :
    (keyed items).map Prod.fst = (items.map Prod.fst).eraseDups :=
  (Keyed.tracks_putAll items).order

theorem nodup_keyed (items : List (String × α)) : ((keyed items).map Prod.fst).Nodup :=
  (Keyed.tracks_putAll items).distinct

/-- Of distinct keys, an entry is the one that is found under its key. -/
theorem mem_iff_lookup {l : List (String × α)} (h : (l.map Prod.fst).Nodup) :
    (id, a) ∈ l ↔ l.lookup id = some a := by
  induction l with
  | nil => simp
  | cons e l ih =>
    rw [List.map_cons, List.nodup_cons] at h
    rw [List.mem_cons, lookup_cons_if e.1 e.2 l id]
    by_cases hid : id = e.1
    · subst hid
      have hnot : (e.1, a) ∉ l := fun hmem => h.1 (List.mem_map.mpr ⟨_, hmem, rfl⟩)
      simp [hnot, Prod.ext_iff, eq_comm]
    · simp [hid, Prod.ext_iff, ih h.2]

/-- An entry is the last item of its key. -/
theorem mem_keyed : (id, a) ∈ keyed items ↔
    ∃ earlier later, items = earlier ++ (id, a) :: later ∧ ∀ e ∈ later, e.1 ≠ id := by
  rw [mem_iff_lookup (nodup_keyed items), keyed, (Keyed.tracks_putAll items).items,
    List.lookup_eq_some_iff]
  constructor
  · rintro ⟨later, earlier, heq, hlater⟩
    refine ⟨earlier.reverse, later.reverse, by simpa using congrArg List.reverse heq,
      fun e he => ?_⟩
    exact (bne_iff_ne.mp (hlater e (List.mem_reverse.mp he))).symm
  · rintro ⟨earlier, later, rfl, hlater⟩
    refine ⟨later.reverse, earlier.reverse, by simp, fun e he => ?_⟩
    exact bne_iff_ne.mpr (hlater e (List.mem_reverse.mp he)).symm

theorem getElem?_numbered (items : List α) (i : Nat) :
    (numbered items)[i]? = items[i]?.map fun a => (Nat.repr i, a) := by
  rw [numbered, List.getElem?_map, List.getElem?_zipIdx, Option.map_map]
  simp [Function.comp_def]

theorem nodup_numbered (items : List α) : ((numbered items).map Prod.fst).Nodup := by
  have hkeys : (numbered items).map Prod.fst = (List.range' 0 items.length).map Nat.repr := by
    rw [← List.zipIdx_map_snd 0 items, numbered, List.map_map, List.map_map]
    rfl
  rw [hkeys]
  refine List.Nodup.map (fun m n h => ?_) List.nodup_range'
  exact natRepr_inj (congrArg String.toList h)

/-! ## Rows -/

/-- The rows of a result stand under distinct keys. With an index these are the keys of the rows in
the order in which they first came, and under a key stands the last row that has it. Without one the
rows stand under their positions. -/
theorem Query.populate_keyed (q : Query) (rows : List Row) :
    ((q.populate rows).map Prod.fst).Nodup ∧
    match q.indexBy with
    | some index =>
      (q.populate rows).map Prod.fst = (rows.map index.key).eraseDups ∧
      ∀ key row, (key, row) ∈ q.populate rows ↔
        ∃ earlier later, rows = earlier ++ row :: later ∧ index.key row = key ∧
          ∀ r ∈ later, index.key r ≠ key
    | none => ∀ i : Nat, (q.populate rows)[i]? = rows[i]?.map fun row => (Nat.repr i, row) := by
  unfold populate
  cases q.indexBy with
  | none => exact ⟨nodup_numbered rows, getElem?_numbered rows⟩
  | some index =>
    refine ⟨nodup_keyed _, ?_, fun key row => ?_⟩
    · rw [keys_keyed, List.map_map]
      rfl
    · rw [mem_keyed]
      constructor
      · rintro ⟨earlier, later, heq, hlater⟩
        obtain ⟨before, rest, rfl, -, hrest⟩ := List.map_eq_append_iff.mp heq
        obtain ⟨row', after, rfl, hrow, rfl⟩ := List.map_eq_cons_iff.mp hrest
        obtain ⟨rfl, rfl⟩ := Prod.mk.inj hrow
        exact ⟨before, after, rfl, rfl, fun r hr => hlater _ (List.mem_map_of_mem hr)⟩
      · rintro ⟨earlier, later, rfl, rfl, hlater⟩
        refine ⟨earlier.map fun r => (index.key r, r), later.map fun r => (index.key r, r),
          by simp, fun e he => ?_⟩
        obtain ⟨r, hr, rfl⟩ := List.mem_map.mp he
        exact hlater r hr

example : (({ Query.empty with indexBy := some (.column "id") } : Query).populate
    [⟨[("id", .int32 1), ("name", .string "a")]⟩, ⟨[("id", .int32 2), ("name", .string "b")]⟩,
      ⟨[("id", .int32 1), ("name", .string "c")]⟩]).map (fun e => (e.1, e.2.get? "name")) =
    [("1", some (.string "c")), ("2", some (.string "b"))] := by
  rfl

end QueryKit
