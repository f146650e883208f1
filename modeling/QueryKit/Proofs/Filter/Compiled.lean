import QueryKit.Proofs.Compile.Done
import QueryKit.Proofs.Compile.Steps
import QueryKit.Proofs.Filter.Pruned
import QueryKit.Proofs.Placeholder.Scan

/-!
# Filtered conditions compile

- `Compile.Within bs`: a step succeeds and binds some of the values `bs`, in their order.
- `Compiler.through_done`: a family that has rendered one fragment has a builder, which renders any
  other fragment of the family.
- `renderHash_filter`, `renderConditions_filterAll`, `operand_filtersWithin`: what is left of a
  condition that compiles is compiled within the values of the condition.
- `Compiler.buildCondition_filter`: filtering breaks no condition and binds nothing new.
-/

namespace QueryKit

/-! ## Steps within values -/

namespace Compile

variable {α β : Type}

/-- The step succeeds, and what it binds is among `bs`, in the same order. -/
def Within (x : Compile α) (bs : List Binding) : Prop :=
  ∃ a cs, x = .ok (a, cs) ∧ cs.Sublist bs

variable {x : Compile α} {bs cs : List Binding}

theorem Within.of_ok {a : α} (h : x = .ok (a, bs)) : x.Within bs :=
  ⟨a, bs, h, .refl bs⟩

theorem Within.pure (a : α) (bs : List Binding) : (Compile.pure a).Within bs :=
  ⟨a, [], rfl, List.nil_sublist bs⟩

theorem Within.mono (h : x.Within bs) (hs : bs.Sublist cs) : x.Within cs := by
  obtain ⟨a, ds, hx, hds⟩ := h
  exact ⟨a, ds, hx, hds.trans hs⟩

theorem Within.bind {f : α → Compile β} (hx : x.Within bs) (hf : ∀ a, (f a).Within cs) :
    (x >>= f).Within (bs ++ cs) := by
  obtain ⟨a, bs', rfl, hbs⟩ := hx
  obtain ⟨b, cs', hb, hcs⟩ := hf a
  exact ⟨b, bs' ++ cs', bind_eq_ok rfl hb, hbs.append hcs⟩

/-- A sequence whose last step only puts a result together. -/
theorem Within.bind_pure {f : α → β} (hx : x.Within bs) :
    (x >>= fun a => Compile.pure (f a)).Within bs := by
  have h : (x >>= fun a => Compile.pure (f a)).Within (bs ++ []) :=
    hx.bind fun a => .pure (f a) []
  rwa [List.append_nil] at h

/-- A sequence that succeeded and whose last step only put a result together. -/
theorem bind_pure_ok {f : α → β} {b : β}
    (h : (x >>= fun a => Compile.pure (f a)) = .ok (b, bs)) : ∃ a, x = .ok (a, bs) := by
  obtain ⟨a, cs, ds, hx, hd, rfl⟩ := bind_ok h
  cases hd
  exact ⟨a, by rw [hx, List.append_nil]⟩

end Compile

open Compile

/-- A family that has rendered a fragment has a builder for all of its fragments. -/
theorem Compiler.through_done {c : Compiler} {f : Family} {render : Builder → Compile String}
    {r : String × List Binding} (h : c.through f render = .ok r) :
    ∃ b, render b = .ok r ∧ ∀ other, c.through f other = other b := by
  unfold Compiler.through at h ⊢
  split at h
  · cases h
  · next b _ =>
    split at h
    · next hf => exact ⟨b, h, fun other => if_pos hf⟩
    · cases h

/-- A fragment of a family put together from other parts than before. -/
theorem Compiler.through_within {c : Compiler} {f : Family} {α : Type} {x y : Compile α}
    {text : α → String} {s : String} {bs : List Binding}
    (h : (c.through f fun _ => x >>= fun a => Compile.pure (text a)) = .ok (s, bs))
    (hxy : ∀ a cs, x = .ok (a, cs) → y.Within cs) :
    (c.through f fun _ => y >>= fun a => Compile.pure (text a)).Within bs := by
  obtain ⟨b, hb, hall⟩ := Compiler.through_done h
  obtain ⟨a, ha⟩ := bind_pure_ok hb
  rw [hall]
  exact (hxy a bs ha).bind_pure

/-! ## Conditions -/

variable {c : Compiler} {s : String} {bs : List Binding}

/-- What a hash tests of one column. -/
def hashTest (c : Compiler) (name : String) (o : Operand) : Compile String :=
  if isListed o then
    c.membership (.pure (.single (c.dialect.columnName name) (some name))) fun column =>
      renderMembership c false column o
  else if o.isNull then .pure (c.dialect.columnName name ++ " IS NULL")
  else do
    let place ← renderOperand c .bound o
    return c.dialect.columnName name ++ " = " ++ place

theorem renderHash_cons (name : String) (o : Operand) (es : List (String × Operand)) :
    renderHash c ((name, o) :: es) = do
      let part ← hashTest c name o
      let parts ← renderHash c es
      return part :: parts := by
  rw [renderHash]
  unfold hashTest
  split
  · rfl
  · split
    · rfl
    · rw [bind_assoc]

/-- The columns of a hash are tested one by one, so that any of them may be left out. -/
theorem renderHash_filter (keep : String × Operand → Bool) :
    ∀ {entries : List (String × Operand)} {parts : List String} {bs : List Binding},
      renderHash c entries = .ok (parts, bs) → (renderHash c (entries.filter keep)).Within bs
  | [], _, bs, _ => .pure [] bs
  | (name, o) :: es, _, _, h => by
    rw [renderHash_cons] at h
    obtain ⟨part, bs, cs, hpart, hrest, rfl⟩ := bind_ok h
    obtain ⟨parts, hes⟩ := bind_pure_ok hrest
    have ih := renderHash_filter keep hes
    rw [List.filter_cons]
    split
    · rw [renderHash_cons]
      exact (Within.of_ok hpart).bind fun _ => ih.bind_pure
    · exact ih.mono (List.sublist_append_right bs cs)

variable (c) in
/-- If an operand compiles as a condition, then what filtering leaves of it compiles within the same
values. -/
def Operand.FiltersWithin (o : Operand) : Prop :=
  ∀ s bs, renderOperand c .condition o = .ok (s, bs) →
    (renderOperand c .condition o.filter).Within bs

theorem renderConditions_filterAll :
    ∀ {os : List Operand} {parts : List String} {bs : List Binding},
      (∀ o ∈ os, o.FiltersWithin c) → renderConditions c os = .ok (parts, bs) →
      (renderConditions c (Operand.filterAll os)).Within bs
  | [], _, bs, _, _ => .pure [] bs
  | o :: os, _, _, hall, h => by
    obtain ⟨hfirst, hall⟩ := List.forall_mem_cons.mp hall
    rw [renderConditions] at h
    obtain ⟨part, bs, cs, ho, hrest, rfl⟩ := bind_ok h
    obtain ⟨parts, hos⟩ := bind_pure_ok hrest
    have ih := renderConditions_filterAll hall hos
    rw [Operand.filterAll]
    split
    · exact ih.mono (List.sublist_append_right bs cs)
    · rw [renderConditions]
      exact (hfirst part bs ho).bind fun _ => ih.bind_pure

/-- NOT keeps its one operand unless nothing is left of it. -/
theorem negationForm_filterAll {op : Operator} {operands : List Operand}
    (hall : ∀ o ∈ operands, o.FiltersWithin c) (hne : Operand.filterAll operands ≠ [])
    (h : negationForm c op operands = .ok (s, bs)) :
    (negationForm c op (Operand.filterAll operands)).Within bs := by
  match operands with
  | [] => cases h
  | [o] =>
    rw [Operand.filterAll] at hne ⊢
    split at hne
    · exact absurd rfl hne
    · next hkept =>
      rw [if_neg hkept]
      exact Compiler.through_within h (hall o List.mem_cons_self)
  | _ :: _ :: _ => cases h

theorem renderForm_filterAll {head : Operand} {operands : List Operand} {token : String}
    (ht : head.asString = some token) (hk : (Operator.parse token).kind.isJunction = true)
    (hall : ∀ o ∈ operands, o.FiltersWithin c) (hne : Operand.filterAll operands ≠ [])
    (h : renderForm c (head :: operands) = .ok (s, bs)) :
    (renderForm c (head :: Operand.filterAll operands)).Within bs := by
  rw [renderForm_cons ht] at h ⊢
  generalize (Operator.parse token).kind = kind at h hk ⊢
  cases kind with
  | not => exact negationForm_filterAll hall hne h
  | conjunction conj =>
    exact Compiler.through_within h fun _ _ hos => renderConditions_filterAll hall hos
  | _ => cases hk

theorem map_filtersWithin (entries : List (String × Operand)) :
    (Operand.map entries).FiltersWithin c := by
  intro s bs h
  rw [Operand.filter]
  simp only [renderOperand] at h ⊢
  split
  · exact .pure "" bs
  · next hkept =>
    rw [if_neg (fun he => hkept (by rw [List.isEmpty_iff.mp he]; rfl))] at h
    exact Compiler.through_within h fun _ _ hes => renderHash_filter _ hes

/-- What filtering leaves of a condition that compiles is compiled within its values. -/
theorem operand_filtersWithin (o : Operand) : o.FiltersWithin c := by
  induction o using Operand.form_induction with
  | value v | expr e | empty => exact fun _ _ h => .of_ok h
  | map entries => exact map_filtersWithin entries
  | form head operands ih =>
    intro s bs h
    cases ht : head.asString with
    | none =>
      rw [Operand.filter_unnamed ht]
      exact .of_ok h
    | some token =>
      cases hk : (Operator.parse token).kind.isJunction with
      | true =>
        rw [Operand.filter_junction ht hk]
        split
        · exact .pure "" bs
        · next hne => exact renderForm_filterAll ht hk ih hne h
      | false =>
        rcases Operand.filter_leaf operands ht hk with ⟨-, hf⟩ | ⟨-, hf⟩
        · rw [hf]
          exact .of_ok h
        · rw [hf]
          exact .pure "" bs

/-- Filtering breaks no condition that compiles, and the positional values that are then bound are
some of those that the condition binds, in their order. -/
theorem Compiler.buildCondition_filter (c : Compiler) {o : Operand} {ps out : Params} {sql : String}
    (h : c.buildCondition o ps = .ok (sql, out)) :
    ∃ kept out' bound bound', c.buildCondition o.filter ps = .ok (kept, out') ∧
      out.positional = ps.positional ++ bound ∧ out'.positional = ps.positional ++ bound' ∧
      bound'.Sublist bound := by
  unfold buildCondition at h ⊢
  cases hx : renderOperand c .condition o with
  | error e =>
    rw [hx] at h
    cases h
  | ok r =>
    obtain ⟨text, bs⟩ := r
    rw [hx] at h
    cases h
    obtain ⟨kept, cs, hkept, hsub⟩ := operand_filtersWithin o sql bs hx
    refine ⟨kept, ps.bindAll cs, positionals bs, positionals cs, ?_, ?_, ?_, ?_⟩
    · rw [hkept]
      rfl
    · exact Params.positional_bindAll ps bs
    · exact Params.positional_bindAll ps cs
    · exact hsub.filterMap Binding.asPositional

/-- A search for members with a part that is empty in each of its conditions. -/
def memberSearch : Operand :=
  .list [.string "and",
    .map [("name", .string ""), ("team", .value (.int32 7))],
    .list [.string "not", .list [.string "like", .string "email", .string " "]],
    .list [.string "or",
      .list [.string "between", .string "age", .value (.int32 18), .string ""],
      .list [.string "in", .string "role", .list [.value (.int32 1), .value (.int32 2)]]]]

/-- What the search binds. -/
def memberParams : Params :=
  ⟨[(.positional, .ofValue (.string "")), (.positional, .ofValue (.int32 7)),
    (.positional, .ofValue (.int32 18)), (.positional, .ofValue (.string "")),
    (.positional, .ofValue (.int32 1)), (.positional, .ofValue (.int32 2))]⟩

theorem memberSearch_filter :
    (Compiler.ofDialect .mysql).buildCondition memberSearch .empty =
        .ok ("(`name` = ? AND `team` = ?) AND (NOT (0=1)) " ++
          "AND ((`age` BETWEEN ? AND ?) OR (`role` IN (?, ?)))", memberParams) ∧
      ∃ kept out' bound bound',
        (Compiler.ofDialect .mysql).buildCondition memberSearch.filter .empty = .ok (kept, out') ∧
          memberParams.positional = Params.empty.positional ++ bound ∧
          out'.positional = Params.empty.positional ++ bound' ∧ bound'.Sublist bound := by
  have h : (Compiler.ofDialect .mysql).buildCondition memberSearch .empty =
      .ok ("(`name` = ? AND `team` = ?) AND (NOT (0=1)) " ++
        "AND ((`age` BETWEEN ? AND ?) OR (`role` IN (?, ?)))", memberParams) := rfl
  exact ⟨h, Compiler.buildCondition_filter (.ofDialect .mysql) h⟩

end QueryKit
