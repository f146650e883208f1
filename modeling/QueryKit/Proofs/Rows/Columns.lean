import QueryKit.Proofs.Key.Lookup

/-!
# The cells of a name

- `Row.cells`: every cell of a row under a name, in select order.
- `Row.get?_eq_head?`, `Row.get?_toJson`: reading by name gives the first of them, and the document
  of the row keeps the last one.
- `Row.toJson_agrees_iff`: when both show the same. In the rows of a join they may differ
  (`Row.joinedRow_differs`).
-/

namespace QueryKit

/-! ## Lists -/

theorem lookup_eq_head? {α : Type} (name : String) : ∀ l : List (String × α),
    l.lookup name = ((l.filter fun e => e.1 == name).map (·.2)).head?
  | [] => rfl
  | (k, a) :: l => by
    rw [lookup_cons_if, lookup_eq_head? name l]
    by_cases hk : k = name
    · simp [hk]
    · simp [hk, Ne.symm hk]

/-- Of assignments to one name the last one counts. -/
theorem lookup_assignments {α : Type} (name : String) (es l : List (String × α)) :
    (es.foldl (fun l e => putKeyed e.1 e.2 l) l).lookup name =
      (es.reverse.lookup name).or (l.lookup name) := by
  induction es generalizing l with
  | nil => rfl
  | cons e es ih =>
    rw [List.foldl_cons, ih, lookup_putKeyed, List.reverse_cons, lookup_append_single,
      Option.or_assoc]
    split <;> rfl

theorem insertMember_eq (key : String) (value : Json) : ∀ ms : List (String × Json),
    Json.insertMember key value ms = putKeyed key value ms
  | [] => rfl
  | (k, v) :: ms => by
    rw [Json.insertMember, putKeyed, insertMember_eq key value ms]

theorem get?_ofAssignments (name : String) (es : List (String × Json)) :
    (Json.ofAssignments es).get? name = es.reverse.lookup name := by
  simp only [Json.ofAssignments, Json.get?, insertMember_eq]
  rw [lookup_assignments, List.lookup_nil, Option.or_none]

/-! ## Rows -/

namespace Row

variable (r : Row) (name : String)

/-- The cells of a name. -/
def cells : List Value :=
  (r.columns.filter fun c => c.1 == name).map (·.2)

/-- Reading by name gives the first cell of the name. -/
theorem get?_eq_head? : r.get? name = (r.cells name).head? :=
  lookup_eq_head? name r.columns

/-- The document of a row has the last cell of the name. -/
theorem get?_toJson : r.toJson.get? name = (r.cells name).getLast?.map Value.toJson := by
  rw [toJson, get?_ofAssignments, lookup_eq_head?, List.filter_reverse, List.map_reverse,
    List.head?_reverse, cells, ← List.getLast?_map, List.filter_map, List.map_map, List.map_map]
  rfl

theorem key_column : (IndexBy.column name).key r =
    ((r.cells name).head?.map Value.toPlainString).getD "" := by
  rw [IndexBy.key, get?_eq_head?]

/-- Reading a row by name and indexing by the name use the first cell of the name, and its document,
from which structures are decoded, has the last one. So there is a member for each name that a cell
has, and it is the document of the cell that reading gives exactly if the first and the last cell of
the name have one document. They do if the name is not repeated. -/
theorem toJson_agrees_iff :
    r.get? name = (r.cells name).head? ∧
    (IndexBy.column name).key r = ((r.cells name).head?.map Value.toPlainString).getD "" ∧
    r.toJson.get? name = (r.cells name).getLast?.map Value.toJson ∧
    ((r.toJson.get? name).isSome ↔ (r.get? name).isSome) ∧
    (r.toJson.get? name = (r.get? name).map Value.toJson ↔
      (r.cells name).getLast?.map Value.toJson = (r.cells name).head?.map Value.toJson) ∧
    ((r.cells name).length ≤ 1 → r.toJson.get? name = (r.get? name).map Value.toJson) := by
  have hfirst := r.get?_eq_head? name
  have hlast := r.get?_toJson name
  refine ⟨hfirst, r.key_column name, hlast, ?_, ?_, fun hsingle => ?_⟩
  · rw [hfirst, hlast, Option.isSome_map, List.getLast?_isSome, List.isSome_head?]
  · rw [hfirst, hlast]
  · rw [hfirst, hlast]
    match r.cells name, hsingle with
    | [], _ => rfl
    | [v], _ => rfl

/-- A row of a join of two tables with a column of one name. -/
def joinedRow : Row :=
  ⟨[("id", .int64 1), ("name", .string "a"), ("id", .int64 2)]⟩

/-- The key of the joined row is its first id, and its document has the other one. -/
theorem joinedRow_differs :
    (IndexBy.column "id").key joinedRow = "1" ∧
    joinedRow.toJson.get? "id" = some (.ofInt 2) ∧
    joinedRow.toJson.get? "id" ≠ (joinedRow.get? "id").map Value.toJson ∧
    joinedRow.toJson.get? "name" = (joinedRow.get? "name").map Value.toJson := by
  obtain ⟨-, hkey, hlast, -, hid, -⟩ := joinedRow.toJson_agrees_iff "id"
  obtain ⟨-, -, -, -, -, hname⟩ := joinedRow.toJson_agrees_iff "name"
  have hcells : joinedRow.cells "id" = [.int64 1, .int64 2] := rfl
  rw [hcells] at hid hlast hkey
  refine ⟨hkey, hlast, fun h => ?_, hname (by decide)⟩
  have heq := hid.mp h
  simp [Value.toJson, Json.ofInt] at heq

end Row

end QueryKit
