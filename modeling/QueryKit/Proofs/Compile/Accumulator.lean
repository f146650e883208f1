import QueryKit.Proofs.Compile.Names

/-!
# Compiling onto an accumulator

`Compile.into` runs a step on the parameters that earlier steps have left.

- `into_pure`, `into_bind`, `into_emit`, `into_pushParam`: steps in sequence hand the parameters on
  from one to the next, and every one adds its own behind what it finds.
- `into_eq_run`: a step run on parameters is the step run on none, whose parameters are then added.
- `Compilable.into_extend`: this holds of everything that is compiled. What is there already decides
  neither success nor failure nor text.
-/

namespace QueryKit

namespace Compile

variable {α β : Type}

/-! ## Parameters are handed on -/

theorem into_pure (a : α) (ps : Params) : (Compile.pure a).into ps = .ok (a, ps) :=
  rfl

theorem into_emit (bs : List Binding) (ps : Params) :
    (Compile.emit bs).into ps = .ok ((), ps.bindAll bs) :=
  rfl

theorem into_pushParam (p : Param) (ps : Params) :
    (Compile.pushParam p).into ps = .ok ("?", ps.push p) :=
  rfl

theorem into_ofResult (r : Result α) (ps : Params) :
    (Compile.ofResult r).into ps = r.map fun a => (a, ps) := by
  cases r <;> rfl

/-- The second step finds the parameters that the first one leaves. -/
theorem into_bind (x : Compile α) (f : α → Compile β) (ps : Params) :
    (x >>= f).into ps = (x.into ps).bind fun (a, qs) => (f a).into qs := by
  rcases x with e | ⟨a, bs⟩
  · rfl
  · change Compile.into (Compile.bind (.ok (a, bs)) f) ps = (f a).into (ps.bindAll bs)
    unfold Compile.bind
    dsimp only
    rcases f a with e | ⟨b, cs⟩
    · rfl
    · exact congrArg (fun qs => Except.ok (b, qs)) Params.bindAll_append

/-! ## Parameters are added afterwards -/

/-- A step run on parameters is the step run on none, whose parameters are then added. -/
theorem into_eq_run {x : Compile α} (h : x.Yields fun _ bs => ∀ b ∈ bs, Params.Plain b)
    (ps : Params) : x.into ps = x.run.map fun (a, added) => (a, ps.extend added) := by
  rcases hx : x with e | ⟨a, bs⟩
  · rfl
  · have hplain : ∀ b ∈ bs, Params.Plain b := h a bs hx
    have hextend : ps.extend (Params.empty.bindAll bs) = ps.bindAll bs :=
      Params.extend_ofBindings hplain ps
    change Except.ok (a, ps.bindAll bs) = Except.ok (a, ps.extend (Params.empty.bindAll bs))
    rw [hextend]

end Compile

namespace Compilable

/-- Compiling onto parameters succeeds, fails and writes as compiling onto none does, and adds what
the latter leaves. -/
theorem into_extend (c : Compiler) (x : Compilable) (ps : Params)
    (hx : ∀ n ∈ x.paramNames, ¬Params.Doubled n) :
    (x.compile c).into ps = (x.compile c).run.map fun (sql, added) => (sql, ps.extend added) := by
  have hplain : (x.compile c).Yields fun _ bs => ∀ b ∈ bs, Params.Plain b :=
    (binds_paramNames c x).mono fun _ _ hbs b hb n hn => hx n (hbs b hb n hn)
  exact Compile.into_eq_run hplain ps

/-- Users above an age, with a name bound in the subquery and again beside it. -/
def adultsFilter : Operand :=
  .list [.string "and",
    .list [.string "in", .string "id",
      .expr (.query { Query.empty with
        select := [⟨none, .name "user_id"⟩]
        tables := [⟨none, .name "login"⟩]
        condition := some (.expr (.raw "day > :day" ⟨[(.named ":day", .ofValue (.int32 7))]⟩)) })],
    .list [.string ">=", .string "age", .value (.int32 18)],
    .expr (.raw "born < :day" ⟨[(.named "day", .ofValue (.int32 9))]⟩)]

theorem adultsFilter_into_extend :
    ((operand .condition adultsFilter).compile (.ofDialect .mysql)).into
        ⟨[(.positional, .ofValue (.int32 1)), (.named "day", .ofValue (.int32 2))]⟩ =
      .ok ("(`id` IN (SELECT `user_id` FROM `login` WHERE day > :day)) AND (`age` >= ?) " ++
          "AND (born < :day)",
        ⟨[(.positional, .ofValue (.int32 1)), (.named "day", .ofValue (.int32 9)),
          (.positional, .ofValue (.int32 18))]⟩) := by
  rw [into_extend (.ofDialect .mysql) (operand .condition adultsFilter) _ (by decide)]
  rfl

end Compilable

end QueryKit
