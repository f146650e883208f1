import QueryKit.Proofs.Compile.Yields

/-!
# Steps that succeed

- `Compile.bind_eq_ok`: two steps that succeed, one after the other, bind what both bind.
- `Compile.into_ok`: what a step that was run on parameters has bound.
- `Compile.mapM_middle`: a step that succeeds for every item of a list.
- `Compiler.through_condition`: every dialect has a builder for each family of conditions.
-/

namespace QueryKit

namespace Compile

variable {α β : Type} {x : Compile α} {a : α} {bs : List Binding}

theorem bind_eq_ok {f : α → Compile β} {b : β} {cs : List Binding} (hx : x = .ok (a, bs))
    (hf : f a = .ok (b, cs)) : x >>= f = .ok (b, bs ++ cs) := by
  rw [hx]
  change Compile.bind (.ok (a, bs)) f = _
  rw [Compile.bind, hf]

/-- A sequence whose last step puts a result together. -/
theorem bind_pure_eq_ok (f : α → β) (hx : x = .ok (a, bs)) :
    (x >>= fun a => Compile.pure (f a)) = .ok (f a, bs) := by
  have h : (x >>= fun a => Compile.pure (f a)) = .ok (f a, bs ++ []) := bind_eq_ok hx rfl
  rwa [List.append_nil] at h

/-- A step that was run on parameters has succeeded, and its bindings were added to them. -/
theorem into_ok {ps out : Params} (h : x.into ps = .ok (a, out)) :
    ∃ bs, x = .ok (a, bs) ∧ out = ps.bindAll bs := by
  cases hx : x with
  | error e =>
    rw [hx] at h
    cases h
  | ok r =>
    rw [hx] at h
    cases h
    exact ⟨r.2, rfl, rfl⟩

/-- A step taken for every item of a list, with one item singled out. -/
theorem mapM_middle {f : α → Compile β} {before after : List α} {xs ys : List β} {y : β}
    {cs ds : List Binding} (hbefore : before.mapM f = .ok (xs, bs)) (ha : f a = .ok (y, cs))
    (hafter : after.mapM f = .ok (ys, ds)) :
    (before ++ a :: after).mapM f = .ok (xs ++ y :: ys, bs ++ (cs ++ ds)) := by
  rw [List.mapM_append, List.mapM_cons]
  exact bind_eq_ok hbefore
    (bind_pure_eq_ok (xs ++ ·) (bind_eq_ok ha (bind_pure_eq_ok (y :: ·) hafter)))

end Compile

/-- No dialect goes without the builders of conditions. -/
theorem Compiler.through_condition (d : Dialect) {f : Family} (hf : f.isCondition = true)
    (render : Builder → Compile String) :
    (Compiler.ofDialect d).through f render = render (.plain f) := by
  cases f with
  | query | typed | raw | array | json => cases hf
  | _ => cases d <;> rfl

end QueryKit
