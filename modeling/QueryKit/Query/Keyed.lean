import QueryKit.Query.Basic

/-!
# Keyed results

- `Keyed`: entries in order of the first occurrence of their keys, each with the latest item of its
  key, and the places of the keys among them. `Keyed.put` adds an item, `keyed` a list of items.
- `Query.populate`: the rows of a result under the keys that the query asks for, or else under their
  positions.
- `putKeyed`: the same for entries whose places are looked for each time.
-/

namespace QueryKit

/-- Put an item under a key: a known key keeps its place. -/
def putKeyed {α : Type} (key : String) (item : α) : List (String × α) → List (String × α)
  | [] => [(key, item)]
  | (k, a) :: r => if k = key then (k, item) :: r else (k, a) :: putKeyed key item r

/-- Items under their keys, with the place of each key among the entries. -/
structure Keyed (α : Type) where
  entries : List (String × α)
  places : List (String × Nat)

namespace Keyed

variable {α : Type}

def empty : Keyed α :=
  ⟨[], []⟩

/-- Put an item under a key: a new key goes to the end, a known key keeps its place and gets the
item. -/
def put (k : Keyed α) (e : String × α) : Keyed α :=
  match k.places.lookup e.1 with
  | some i => { k with entries := k.entries.modify i fun old => (old.1, e.2) }
  | none => ⟨k.entries ++ [e], (e.1, k.entries.length) :: k.places⟩

/-- Put items under their keys, one after another. -/
def putAll (k : Keyed α) (items : List (String × α)) : Keyed α :=
  items.foldl put k

end Keyed

/-- Entries with distinct keys; a repeated key replaces the earlier item. -/
def keyed {α : Type} (items : List (String × α)) : List (String × α) :=
  (Keyed.empty.putAll items).entries

/-- Items under their positions, counted from zero. -/
def numbered {α : Type} (items : List α) : List (String × α) :=
  items.zipIdx.map fun (a, i) => (Nat.repr i, a)

namespace Query

/-- The rows of a result under their keys. -/
def populate (q : Query) (rows : List Row) : List (String × Row) :=
  match q.indexBy with
  | some index => keyed (rows.map fun row => (index.key row, row))
  | none => numbered rows

end Query

end QueryKit
