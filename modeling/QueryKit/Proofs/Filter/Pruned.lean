import QueryKit.Condition.OperandForm

/-!
# What filtering leaves of a condition

- `ConditionKind.isJunction`: NOT, AND and OR, the operators over conditions. Filtering goes into
  their operands and into nothing else.
- `ConditionKind.IsServed`: an operator has operands that are not empty where it needs them.
- `Operand.form_induction`: induction on conditions, through the operands of operator lists.
- `Operand.Reaches`: the parts of a condition that filtering comes to.
- `Operand.IsPruned`: nothing that filtering answers for is empty in one part.
- `Operand.filter_junction`, `Operand.filter_leaf`: filtering, one operator at a time.
- `Operand.filter_eq_self_iff`: filtering changes nothing exactly if every part is pruned.
- `Operand.filter_normal`: what filtering leaves is pruned in every part, so that filtering it again
  changes nothing; and what is pruned in every part is left as it is.
-/

namespace QueryKit

/-- Whether the operands of an operator are conditions themselves: NOT, AND and OR. -/
def ConditionKind.isJunction : ConditionKind → Bool
  | .not | .conjunction _ => true
  | _ => false

/-- The operands that an operator needs are not empty: all operands of NOT, AND and OR, of which
there are some, the bounds of a BETWEEN that has both, and the second operand of any other operator
that has one. -/
structure ConditionKind.IsServed (kind : ConditionKind) (operands : List Operand) : Prop where
  conditions : kind.isJunction = true → operands ≠ [] ∧ ∀ o ∈ operands, o.isEmpty = false
  bounds : ∀ negated, kind = .between negated →
    ∀ low ∈ operands[1]?, ∀ high ∈ operands[2]?, low.isEmpty = false ∧ high.isEmpty = false
  second : kind.isJunction = false → (∀ negated, kind ≠ .between negated) →
    ∀ v ∈ operands[1]?, v.isEmpty = false

namespace Operand

section Induction

variable {motive : Operand → Prop}

mutual

/-- What holds of an operator list if it holds of its operands, and of everything that is no
operator list, holds of all operands. -/
@[elab_as_elim]
theorem form_induction (value : ∀ v, motive (.value v)) (expr : ∀ e, motive (.expr e))
    (map : ∀ entries, motive (.map entries)) (empty : motive (.list []))
    (form : ∀ head operands, (∀ o ∈ operands, motive o) → motive (.list (head :: operands))) :
    ∀ o, motive o
  | .value v => value v
  | .expr e => expr e
  | .map entries => map entries
  | .list [] => empty
  | .list (head :: operands) =>
    form head operands (forms_induction value expr map empty form operands)

theorem forms_induction (value : ∀ v, motive (.value v)) (expr : ∀ e, motive (.expr e))
    (map : ∀ entries, motive (.map entries)) (empty : motive (.list []))
    (form : ∀ head operands, (∀ o ∈ operands, motive o) → motive (.list (head :: operands))) :
    ∀ os : List Operand, ∀ o ∈ os, motive o
  | [], _, ho => nomatch ho
  | m :: os, o, ho => by
    rcases List.mem_cons.mp ho with hm | ho
    · rw [hm]
      exact form_induction value expr map empty form m
    · exact forms_induction value expr map empty form os o ho

end

end Induction

/-- The parts of a condition that filtering comes to: the condition, and what it comes to in the
operands of NOT, AND and OR. -/
inductive Reaches : Operand → Operand → Prop where
  | here (o : Operand) : Reaches o o
  | within {head o p : Operand} {token : String} {operands : List Operand} :
      head.asString = some token → (Operator.parse token).kind.isJunction = true →
      o ∈ operands → Reaches o p → Reaches (.list (head :: operands)) p

/-- Nothing is empty in this part of a condition that filtering answers for there: no value of a
hash, and none of the operands that an operator needs. -/
def IsPruned : Operand → Prop
  | .map entries => ∀ e ∈ entries, e.2.isEmpty = false
  | .list (head :: operands) =>
    ∀ token, head.asString = some token → (Operator.parse token).kind.IsServed operands
  | _ => True

variable {head : Operand} {operands : List Operand} {token : String}

/-! ## One operator -/

theorem isPruned_form (ht : head.asString = some token) :
    (list (head :: operands)).IsPruned ↔ (Operator.parse token).kind.IsServed operands := by
  refine ⟨fun h => h token ht, fun h t hs => ?_⟩
  rw [ht] at hs
  cases hs
  exact h

theorem filter_unnamed (ht : head.asString = none) :
    (list (head :: operands)).filter = .list (head :: operands) := by
  unfold filter
  rw [ht]

theorem filter_junction (ht : head.asString = some token)
    (hk : (Operator.parse token).kind.isJunction = true) :
    (list (head :: operands)).filter =
      if filterAll operands = [] then .list [] else .list (head :: filterAll operands) := by
  unfold filter
  rw [ht]
  dsimp only
  generalize (Operator.parse token).kind = kind at hk ⊢
  cases kind with
  | not | conjunction => cases filterAll operands <;> rfl
  | _ => cases hk

theorem isServed_junction {kind : ConditionKind} (hk : kind.isJunction = true) :
    kind.IsServed operands ↔ operands ≠ [] ∧ ∀ o ∈ operands, o.isEmpty = false := by
  refine ⟨fun h => h.conditions hk, fun h => ⟨fun _ => h, ?_, ?_⟩⟩
  · rintro negated rfl
    cases hk
  · intro hn
    rw [hk] at hn
    cases hn

theorem isServed_between {negated : Bool} :
    (ConditionKind.between negated).IsServed operands ↔
      ∀ low ∈ operands[1]?, ∀ high ∈ operands[2]?, low.isEmpty = false ∧ high.isEmpty = false := by
  refine ⟨fun h => h.bounds negated rfl, fun h => ⟨?_, fun _ _ => h, ?_⟩⟩
  · intro hk
    cases hk
  · exact fun _ hn => absurd rfl (hn negated)

theorem isServed_leaf {kind : ConditionKind} (hk : kind.isJunction = false)
    (hb : ∀ negated, kind ≠ .between negated) :
    kind.IsServed operands ↔ ∀ v ∈ operands[1]?, v.isEmpty = false := by
  refine ⟨fun h => h.second hk hb, fun h => ⟨?_, fun negated hn => absurd hn (hb negated), ?_⟩⟩
  · intro hj
    rw [hk] at hj
    cases hj
  · exact fun _ _ => h

/-- An operator that does not join conditions stays as it is if it has what it needs. Otherwise
nothing is left of it. -/
theorem filter_leaf (operands : List Operand) (ht : head.asString = some token)
    (hk : (Operator.parse token).kind.isJunction = false) :
    (Operator.parse token).kind.IsServed operands ∧
        (list (head :: operands)).filter = .list (head :: operands) ∨
      ¬(Operator.parse token).kind.IsServed operands ∧
        (list (head :: operands)).filter = .list [] := by
  unfold filter
  rw [ht]
  dsimp only
  generalize (Operator.parse token).kind = kind at hk ⊢
  cases kind with
  | not | conjunction => cases hk
  | between negated =>
    rw [isServed_between]
    match operands with
    | [] | [_] | [_, _] => simp
    | _ :: low :: high :: _ =>
      cases hl : low.isEmpty <;> cases hh : high.isEmpty <;> simp [hl, hh]
  | _ =>
    rw [isServed_leaf hk (by simp)]
    match operands with
    | [] | [_] => simp
    | _ :: v :: _ => cases hv : v.isEmpty <;> simp [hv]

/-! ## Every part -/

/-- No part that filtering comes to holds anything empty. -/
def AllPruned (o : Operand) : Prop :=
  ∀ p, o.Reaches p → p.IsPruned

theorem allPruned_list_nil : AllPruned (.list []) := by
  intro p hp
  cases hp
  trivial

theorem allPruned_unnamed (ht : head.asString = none) : AllPruned (.list (head :: operands)) := by
  intro p hp
  cases hp with
  | here => exact fun token hs => nomatch ht ▸ hs
  | within hs => exact nomatch ht ▸ hs

theorem allPruned_junction (ht : head.asString = some token)
    (hk : (Operator.parse token).kind.isJunction = true) :
    AllPruned (.list (head :: operands)) ↔
      operands ≠ [] ∧ ∀ o ∈ operands, o.isEmpty = false ∧ o.AllPruned := by
  constructor
  · intro h
    obtain ⟨hne, hall⟩ := (isServed_junction hk).mp ((isPruned_form ht).mp (h _ (.here _)))
    exact ⟨hne, fun o ho => ⟨hall o ho, fun p hp => h p (.within ht hk ho hp)⟩⟩
  · rintro ⟨hne, hall⟩ p hp
    cases hp with
    | here =>
      exact (isPruned_form ht).mpr ((isServed_junction hk).mpr ⟨hne, fun o ho => (hall o ho).1⟩)
    | within _ _ ho hp => exact (hall _ ho).2 p hp

theorem allPruned_leaf (ht : head.asString = some token)
    (hk : (Operator.parse token).kind.isJunction = false) :
    AllPruned (.list (head :: operands)) ↔ (Operator.parse token).kind.IsServed operands := by
  refine ⟨fun h => (isPruned_form ht).mp (h _ (.here _)), fun h p hp => ?_⟩
  cases hp with
  | here => exact (isPruned_form ht).mpr h
  | within hs hk' =>
    rw [ht] at hs
    cases hs
    rw [hk] at hk'
    cases hk'

theorem filterAll_eq : ∀ os : List Operand,
    filterAll os = (os.map filter).filter fun o => !o.isEmpty
  | [] => rfl
  | o :: os => by
    rw [filterAll, List.map_cons, List.filter_cons, filterAll_eq os]
    cases o.filter.isEmpty <;> rfl

theorem mem_filterAll {o : Operand} {os : List Operand} :
    o ∈ filterAll os ↔ (∃ m ∈ os, m.filter = o) ∧ o.isEmpty = false := by
  rw [filterAll_eq, List.mem_filter, List.mem_map, Bool.not_eq_true']

/-- Filtering leaves nothing empty in any part that it comes to. -/
theorem filter_allPruned (o : Operand) : o.filter.AllPruned := by
  induction o using form_induction with
  | value v | expr e =>
    intro p hp
    cases hp
    trivial
  | map entries =>
    intro p hp
    cases hp
    intro e he
    simpa using (List.mem_filter.mp he).2
  | empty => exact allPruned_list_nil
  | form head operands ih =>
    cases ht : head.asString with
    | none =>
      rw [filter_unnamed ht]
      exact allPruned_unnamed ht
    | some token =>
      cases hk : (Operator.parse token).kind.isJunction with
      | true =>
        rw [filter_junction ht hk]
        split
        · exact allPruned_list_nil
        · next hne =>
          refine (allPruned_junction ht hk).mpr ⟨hne, fun o ho => ?_⟩
          obtain ⟨⟨m, hm, rfl⟩, hne⟩ := mem_filterAll.mp ho
          exact ⟨hne, ih m hm⟩
      | false =>
        rcases filter_leaf operands ht hk with ⟨hp, h⟩ | ⟨-, h⟩
        · rw [h]
          exact (allPruned_leaf ht hk).mpr hp
        · rw [h]
          exact allPruned_list_nil

theorem filterAll_eq_self {os : List Operand} (h : ∀ o ∈ os, o.filter = o ∧ o.isEmpty = false) :
    filterAll os = os := by
  have hmap : os.map filter = os.map id := List.map_congr_left fun o ho => (h o ho).1
  rw [filterAll_eq, hmap, List.map_id]
  exact List.filter_eq_self.mpr fun o ho => by rw [(h o ho).2]; rfl

/-- Where nothing is empty, filtering changes nothing. -/
theorem filter_of_allPruned {o : Operand} (h : o.AllPruned) : o.filter = o := by
  induction o using form_induction with
  | value v | expr e | empty => rfl
  | map entries =>
    have hall : ∀ e ∈ entries, e.2.isEmpty = false := h _ (.here _)
    rw [filter, List.filter_eq_self.mpr fun e he => by rw [hall e he]; rfl]
  | form head operands ih =>
    cases ht : head.asString with
    | none => exact filter_unnamed ht
    | some token =>
      cases hk : (Operator.parse token).kind.isJunction with
      | true =>
        obtain ⟨hne, hall⟩ := (allPruned_junction ht hk).mp h
        have hself := filterAll_eq_self fun o ho => ⟨ih o ho (hall o ho).2, (hall o ho).1⟩
        rw [filter_junction ht hk, hself, if_neg hne]
      | false =>
        have hp := (allPruned_leaf ht hk).mp h
        exact (filter_leaf operands ht hk).elim (·.2) fun hn => absurd hp hn.1

/-- Filtering changes nothing exactly if no part that it comes to holds anything empty. -/
theorem filter_eq_self_iff {o : Operand} : o.filter = o ↔ o.AllPruned :=
  ⟨fun h => h ▸ filter_allPruned o, filter_of_allPruned⟩

/-- What filtering leaves of a condition holds nothing empty in any part, so that filtering it once
more changes nothing. A condition that holds nothing empty is left as it is. -/
theorem filter_normal (o : Operand) :
    o.filter.filter = o.filter ∧ (∀ p, o.filter.Reaches p → p.IsPruned) ∧
      (o.filter = o ↔ ∀ p, o.Reaches p → p.IsPruned) :=
  ⟨filter_eq_self_iff.mpr (filter_allPruned o), filter_allPruned o, filter_eq_self_iff⟩

example :
    (list [.string "And", .map [("name", .string " "), ("team", .value (.int32 7))],
      .list [.string "not",
        .list [.string "or", .list [.string "like", .string "email", .string ""]]],
      .list [.string "not in", .string "role", .list []]]).filter =
      .list [.string "And", .map [("team", .value (.int32 7))]] := by
  rfl

end Operand

end QueryKit
