import QueryKit.Proofs.Search.Entry

/-!
# Conditions of a filter

- `IsPlain`: documents in which no object stands for a subquery or a raw expression. Nothing in such
  a document is expanded (`expandedOperand_of_isPlain`).
- `FilterVerb.condition?`: what a verb of the WHERE or the HAVING clause does with a condition.
- `guardValue`: the guard of a condition, which may be a text as a whole.
- `search_condition`: the condition that such a verb adds to a query is the document that a filter
  gives it, whether the verb expands its values or not.
-/

namespace QueryKit

/-- The method of a query that a verb of the WHERE or the HAVING clause calls. -/
def FilterVerb.condition? : FilterVerb → Option (Query → Operand → Query)
  | .where_ => some Query.where_
  | .andWhere => some Query.andWhere
  | .orWhere => some Query.orWhere
  | .filterWhere => some Query.filterWhere
  | .andFilterWhere => some Query.andFilterWhere
  | .orFilterWhere => some Query.orFilterWhere
  | .having => some Query.withHaving
  | .andHaving => some Query.andHaving
  | .orHaving => some Query.orHaving
  | _ => none

namespace Search

variable {sub : Json → Result Query} {j : Json}

/-! ## Plain documents -/

/-- The entries of an object that stands for a subquery or a raw expression. -/
def Wraps (entries : List (String × Json)) : Prop :=
  ∃ key value, entries = [(key, value)] ∧ (key = "query" ∨ key = "exp")

mutual

/-- No object of the document stands for a subquery or a raw expression. -/
def IsPlain : Json → Prop
  | .array items => ItemsPlain items
  | .object entries => ¬Wraps entries ∧ EntriesPlain entries
  | _ => True

def ItemsPlain : List Json → Prop
  | [] => True
  | j :: js => IsPlain j ∧ ItemsPlain js

def EntriesPlain : List (String × Json) → Prop
  | [] => True
  | (_, j) :: es => IsPlain j ∧ EntriesPlain es

end

theorem nestedExpression_object {entries : List (String × Json)} (h : ¬Wraps entries) :
    nestedExpression sub (.object entries) = .ok none := by
  unfold nestedExpression
  split
  · next filter heq =>
    have hentries : entries = [("query", filter)] := Json.object.inj heq
    exact absurd ⟨"query", filter, hentries, .inl rfl⟩ h
  · next raw heq =>
    have hentries : entries = [("exp", raw)] := Json.object.inj heq
    exact absurd ⟨"exp", raw, hentries, .inr rfl⟩ h
  · rfl

mutual

/-- A plain document is the operand that it writes. -/
theorem expandedOperand_of_isPlain : ∀ {j : Json}, IsPlain j →
    expandedOperand sub j = .ok (.ofJson j)
  | .array items, h => by
    have hitems : expandedItems sub items = .ok (Operand.itemsOfJson items) :=
      expandedItems_of_itemsPlain h
    rw [expandedOperand, hitems]
    rfl
  | .object entries, h => by
    have hentries : expandedEntries sub entries = .ok (Operand.entriesOfJson entries) :=
      expandedEntries_of_entriesPlain h.2
    rw [expandedOperand, nestedExpression_object h.1, hentries]
    rfl
  | .null, _ => rfl
  | .bool _, _ => rfl
  | .number _, _ => rfl
  | .string _, _ => rfl

theorem expandedItems_of_itemsPlain : ∀ {js : List Json}, ItemsPlain js →
    expandedItems sub js = .ok (Operand.itemsOfJson js)
  | [], _ => rfl
  | j :: js, h => by
    rw [expandedItems, expandedOperand_of_isPlain h.1, expandedItems_of_itemsPlain h.2]
    rfl

theorem expandedEntries_of_entriesPlain : ∀ {es : List (String × Json)}, EntriesPlain es →
    expandedEntries sub es = .ok (Operand.entriesOfJson es)
  | [], _ => rfl
  | (key, j) :: es, h => by
    rw [expandedEntries, expandedOperand_of_isPlain h.1, expandedEntries_of_entriesPlain h.2]
    rfl

end

/-! ## Verbs that take a condition -/

/-- The guards that the value of a verb with a condition meets. -/
def guardValue (j : Json) : Result Unit := do
  if let .string s := j then guardText s
  guardCondition j

/-- Verbs that expand their values and verbs that do not make the same of a plain document. -/
theorem conditionOf_of_isPlain (expands : Bool) (h : IsPlain j) :
    conditionOf sub expands j = (guardCondition j).map fun _ => .ofJson j := by
  rw [conditionOf, expandedOperand_of_isPlain h]
  cases guardCondition j with
  | error e => rfl
  | ok u => cases expands <;> rfl

/-- A verb that takes a condition gives a plain document to the method of its name. -/
theorem applyVerb_condition {verb : FilterVerb} {build : Query → Operand → Query}
    (hverb : verb.condition? = some build) (hplain : IsPlain j) (q : Query) :
    applyVerb sub q verb j = (guardValue j).map fun _ => build q (.ofJson j) := by
  have happly : applyVerb sub q verb j = (do
      if let .string s := j then guardText s
      applyCondition sub build q verb j) := by
    cases verb <;> cases hverb <;> rfl
  rw [happly, applyCondition, conditionOf_of_isPlain _ hplain]
  unfold guardValue
  cases j with
  | string s =>
    dsimp only
    cases guardText s <;> rfl
  | _ =>
    dsimp only
    cases guardCondition _ <;> rfl

/-- A filter whose only entry is a condition without subqueries and raw expressions gives this
condition to the method that its key names, if the guard lets it pass. -/
theorem search_condition {key : String} {verb : FilterVerb} {build : Query → Operand → Query}
    {j : Json} (hkey : FilterVerb.parse key = .ok verb) (hverb : verb.condition? = some build)
    (hplain : IsPlain j) (q : Query) :
    (∀ sub, expandedOperand sub j = .ok (.ofJson j)) ∧
    (∀ sub, applyVerb sub q verb j = (guardValue j).map fun _ => build q (.ofJson j)) ∧
    search q (.object [(key, j)]) = (guardValue j).map fun _ => build q (.ofJson j) := by
  refine ⟨fun sub => expandedOperand_of_isPlain hplain,
    fun sub => applyVerb_condition hverb hplain q, ?_⟩
  rw [search_single hkey]
  exact applyVerb_condition hverb hplain q

/-- An object with two keys is plain, whatever they are; a value may hold a separator. -/
theorem twoKeys_search :
    let j := Json.array [.string "or", .object [("query", .null), ("exp", .bool true)],
      .array [.string "like", .string "name", .string "a;b"]]
    search .empty (.object [("or_having", j)]) = .ok (Query.orHaving .empty
      (.list [.string "or", .map [("query", .value .null), ("exp", .value (.bool true))],
        .list [.string "like", .string "name", .string "a;b"]])) := by
  intro j
  have hplain : IsPlain j := by
    simp [j, IsPlain, ItemsPlain, EntriesPlain, Wraps]
  have hkey : FilterVerb.parse "or_having" = .ok .orHaving := rfl
  have hguard : guardValue j = .ok () := rfl
  have hsearch := (search_condition hkey rfl hplain .empty).2.2
  rw [hguard] at hsearch
  exact hsearch

end Search

end QueryKit
