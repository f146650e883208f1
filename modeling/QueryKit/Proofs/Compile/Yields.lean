import QueryKit.Compile.Registry

/-!
# What a compilation step yields

`Compile.Yields x P`: whenever `x` succeeds, `P` holds of its result and of the values it binds. A
step that fails yields everything, so a rule for a sequence asks nothing of a step that is never
taken.

- `Yields.bind`: a sequence binds the values of its steps one after the other.
- `Together R`: the items of a list satisfy `R`, each with its own values, and the list binds all of
  them in the order of the items. `Yields.mapM`: what a step taken for every item yields.
- `Compiler.through_yields`: what a fragment yields does not depend on the registry, which decides
  only whether it fails.
-/

namespace QueryKit

/-- A sequence of results that succeeds is two results that do. -/
theorem Result.bind_ok {α β : Type} {x : Result α} {f : α → Result β} {b : β}
    (h : x >>= f = .ok b) : ∃ a, x = .ok a ∧ f a = .ok b := by
  cases x with
  | error _ => cases h
  | ok a => exact ⟨a, rfl, h⟩

namespace Compile

variable {α β : Type}

/-- Whenever the step succeeds, `P` holds of its result and of the values it binds. -/
def Yields (x : Compile α) (P : α → List Binding → Prop) : Prop :=
  ∀ a bs, x = .ok (a, bs) → P a bs

@[simp] theorem pure_eq (a : α) : (Pure.pure a : Compile α) = Compile.pure a := rfl

/-- A sequence that succeeds is two steps that succeed. -/
theorem bind_ok {x : Compile α} {f : α → Compile β} {b : β} {ds : List Binding}
    (h : x >>= f = .ok (b, ds)) :
    ∃ a bs cs, x = .ok (a, bs) ∧ f a = .ok (b, cs) ∧ ds = bs ++ cs := by
  cases x with
  | error e => cases h
  | ok r =>
    obtain ⟨a, bs⟩ := r
    change Compile.bind (.ok (a, bs)) f = .ok (b, ds) at h
    unfold Compile.bind at h
    dsimp only at h
    split at h
    · cases h
    · rename_i c cs hf
      cases h
      exact ⟨a, bs, cs, rfl, hf, rfl⟩

/-- A result binds nothing. -/
theorem ofResult_ok {r : Result α} {a : α} {bs : List Binding}
    (h : Compile.ofResult r = .ok (a, bs)) : r = .ok a ∧ bs = [] := by
  cases r with
  | error e => cases h
  | ok b =>
    cases h
    exact ⟨rfl, rfl⟩

instance : LawfulMonad Compile :=
  LawfulMonad.mk' Compile
    (fun x => by
      rcases x with e | ⟨a, bs⟩
      · rfl
      · change Except.ok (a, bs ++ []) = _
        rw [List.append_nil])
    (fun a f => by
      change (match f a with
        | .error e => .error e
        | .ok (b, cs) => .ok (b, [] ++ cs)) = f a
      rcases f a with e | ⟨b, cs⟩ <;> rfl)
    (fun x f g => by
      rcases x with e | ⟨a, bs⟩
      · rfl
      · change Compile.bind (Compile.bind (.ok (a, bs)) f) g
          = Compile.bind (.ok (a, bs)) fun a => Compile.bind (f a) g
        simp only [Compile.bind]
        rcases f a with e | ⟨b, cs⟩
        · rfl
        · dsimp only
          rcases g b with e | ⟨d, ds⟩
          · rfl
          · dsimp only
            rw [List.append_assoc])

end Compile

open Compile

/-- The items of a list satisfy `R`, each with its own share of the bound values. -/
inductive Together {α : Type} (R : α → List Binding → Prop) : List α → List Binding → Prop where
  | nil : Together R [] []
  | cons {a : α} {as : List α} {bs cs : List Binding} :
      R a bs → Together R as cs → Together R (a :: as) (bs ++ cs)

namespace Together

variable {α β : Type} {R : α → List Binding → Prop} {S : β → List Binding → Prop}

theorem nil_iff {bs : List Binding} : Together R [] bs ↔ bs = [] := by
  constructor
  · intro h
    cases h
    rfl
  · rintro rfl
    exact nil

theorem cons_iff {a : α} {as : List α} {ds : List Binding} :
    Together R (a :: as) ds ↔ ∃ bs cs, R a bs ∧ Together R as cs ∧ ds = bs ++ cs := by
  constructor
  · intro h
    cases h with
    | cons ha has => exact ⟨_, _, ha, has, rfl⟩
  · rintro ⟨bs, cs, ha, has, rfl⟩
    exact cons ha has

theorem singleton_iff {a : α} {bs : List Binding} : Together R [a] bs ↔ R a bs := by
  rw [cons_iff]
  constructor
  · rintro ⟨bs, cs, ha, hnil, rfl⟩
    rw [nil_iff] at hnil
    subst hnil
    rwa [List.append_nil]
  · intro h
    exact ⟨bs, [], h, nil, (List.append_nil bs).symm⟩

theorem singleton {a : α} {bs : List Binding} (h : R a bs) : Together R [a] bs :=
  singleton_iff.mpr h

/-- An item that binds nothing, in front of others. -/
theorem cons_nil {a : α} {as : List α} {bs : List Binding} (ha : R a [])
    (has : Together R as bs) : Together R (a :: as) bs := by
  rw [← List.nil_append bs]
  exact cons ha has

/-- Items of which every one binds nothing bind nothing together. -/
theorem of_forall {as : List α} (h : ∀ a ∈ as, R a []) : Together R as [] := by
  induction as with
  | nil => exact nil
  | cons a as ih =>
    have ha := h a List.mem_cons_self
    have has := ih fun b hb => h b (List.mem_cons_of_mem a hb)
    exact cons_nil ha has

theorem map {f : α → β} (hf : ∀ a bs, R a bs → S (f a) bs) {as : List α} {bs : List Binding}
    (h : Together R as bs) : Together S (as.map f) bs := by
  induction h with
  | nil => exact nil
  | cons ha _ ih => exact cons (hf _ _ ha) ih

end Together

namespace Compile.Yields

variable {α β : Type} {P P' : α → List Binding → Prop} {Q : β → List Binding → Prop}
  {x : Compile α}

theorem pure {a : α} (h : P a []) : Yields (Compile.pure a) P := by
  intro b bs hb
  cases hb
  exact h

theorem fault {f : ArgumentFault} : Yields (Compile.fault f) P := by
  intro a bs h
  cases h

theorem mono (h : x.Yields P) (hP : ∀ a bs, P a bs → P' a bs) : x.Yields P' :=
  fun a bs hx => hP a bs (h a bs hx)

/-- A step yields all that it yields in one way and in another. -/
theorem and (h : x.Yields P) (h' : x.Yields P') : x.Yields fun a bs => P a bs ∧ P' a bs :=
  fun a bs hx => ⟨h a bs hx, h' a bs hx⟩

/-- A fact that does not depend on what the step yields. -/
theorem or_const {q : Prop} (h : x.Yields P ∨ q) : x.Yields fun a bs => P a bs ∨ q := by
  rcases h with h | hq
  · exact h.mono fun _ _ => .inl
  · exact fun _ _ _ => .inr hq

theorem bind {f : α → Compile β} (hx : x.Yields P)
    (hf : ∀ a bs, P a bs → (f a).Yields fun b cs => Q b (bs ++ cs)) : (x >>= f).Yields Q := by
  intro b ds h
  obtain ⟨a, bs, cs, ha, hb, rfl⟩ := bind_ok h
  exact hf a bs (hx a bs ha) b cs hb

/-- A sequence whose last step yields the same whatever the first one does. -/
theorem bind_last {f : α → Compile β} {Q : β → Prop} (hf : ∀ a, (f a).Yields fun b _ => Q b) :
    (x >>= f).Yields fun b _ => Q b := by
  have hx : x.Yields fun _ _ => True := fun _ _ _ => trivial
  exact hx.bind fun a _ _ => hf a

/-- A sequence whose last step only puts a result together. -/
theorem bind_pure {f : α → β} (hx : x.Yields P) (hf : ∀ a bs, P a bs → Q (f a) bs) :
    (x >>= fun a => Compile.pure (f a)).Yields Q :=
  hx.bind fun a bs ha => pure (by simpa using hf a bs ha)

theorem emit {bs : List Binding} {P : Unit → List Binding → Prop} (h : P () bs) :
    Yields (Compile.emit bs) P := by
  intro a cs hb
  cases hb
  exact h

theorem pushParam {p : Param} {P : String → List Binding → Prop} (h : P "?" [⟨.positional, p⟩]) :
    Yields (Compile.pushParam p) P := by
  intro a bs hb
  cases hb
  exact h

theorem push {v : Value} {P : String → List Binding → Prop}
    (h : ∀ p, P "?" [⟨.positional, p⟩]) : Yields (Compile.push v) P :=
  pushParam (h _)

theorem ofResult {r : Result α} (h : ∀ a, r = .ok a → P a []) : Yields (Compile.ofResult r) P := by
  intro a bs hb
  obtain ⟨ha, rfl⟩ := ofResult_ok hb
  exact h a ha

/-- A sequence that begins with a result. -/
theorem ofResult_bind {r : Result α} {f : α → Compile β} (h : ∀ a, r = .ok a → (f a).Yields Q) :
    (Compile.ofResult r >>= f).Yields Q := by
  have hr : (Compile.ofResult r).Yields fun a bs => r = .ok a ∧ bs = [] :=
    fun _ _ => ofResult_ok
  refine hr.bind ?_
  rintro a _ ⟨ha, rfl⟩
  exact h a ha

/-- A step taken for every item of a list. -/
theorem mapM {f : α → Compile β} : ∀ {as : List α}, (∀ a ∈ as, (f a).Yields Q) →
    (as.mapM f).Yields (Together Q)
  | [], _ => by
    rw [List.mapM_nil]
    exact pure .nil
  | a :: as, h => by
    rw [List.mapM_cons]
    refine bind (h a List.mem_cons_self) fun b bs hb => ?_
    refine bind (mapM fun d hd => h d (List.mem_cons_of_mem a hd)) fun ds cs hds => ?_
    exact pure (by simpa using Together.cons hb hds)

end Compile.Yields

/-- The registry decides whether a fragment fails, not what it yields. -/
theorem Compiler.through_yields (c : Compiler) {f : Family} {render : Builder → Compile String}
    {P : String → List Binding → Prop} (h : ∀ b, (render b).Yields P) :
    (c.through f render).Yields P := by
  unfold Compiler.through
  split
  · exact .fault
  · split
    · exact h _
    · exact .fault

end QueryKit
