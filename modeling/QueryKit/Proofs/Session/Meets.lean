import QueryKit.Session.Basic

/-!
# Triples for steps

`Run.Meets I J P x Q`: from a state with `P` the step `x` ends in a result with `Q`; if it fails,
`I` holds then, and if it is cancelled, `J`. What is claimed of failures and cancellations stays the
same along a step, so that the rules (`Meets.bind`, `Meets.attempt`, …) only pass on what is known
of the results.

Where the end of a step is known, the steps that are made of it are followed by `bind_done`,
`bind_failed`, `attempt_done` and `attempt_failed`.
-/

namespace QueryKit.Run

variable {σ α β : Type} {I I' J J' P P' : RunState σ → Prop} {Q Q' : α → RunState σ → Prop}
  {R : β → RunState σ → Prop}

theorem bind_done {x : Run σ α} {f : α → Run σ β} {w w' : RunState σ} {a : α}
    (h : x w = (.done a, w')) : (x >>= f) w = f a w' := by
  change Run.bind x f w = _
  rw [Run.bind, h]

theorem bind_failed {x : Run σ α} {f : α → Run σ β} {w w' : RunState σ} {e : Error}
    (h : x w = (.failed e, w')) : (x >>= f) w = (.failed e, w') := by
  change Run.bind x f w = _
  rw [Run.bind, h]

theorem attempt_done {x : Run σ α} {w w' : RunState σ} {a : α} (h : x w = (.done a, w')) :
    x.attempt w = (.done (.ok a), w') := by
  rw [Run.attempt, h]

theorem attempt_failed {x : Run σ α} {w w' : RunState σ} {e : Error}
    (h : x w = (.failed e, w')) : x.attempt w = (.done (.error e), w') := by
  rw [Run.attempt, h]

/-- What holds when a step has ended, by the way in which it ended. -/
def Ends (I J : RunState σ → Prop) (Q : α → RunState σ → Prop) : Outcome α × RunState σ → Prop
  | (.done a, w) => Q a w
  | (.failed _, w) => I w
  | (.cancelled, w) => J w

/-- What holds when a step that may fail has been attempted. -/
def Tried (I : RunState σ → Prop) (Q : α → RunState σ → Prop) : Result α → RunState σ → Prop
  | .ok a, w => Q a w
  | .error _, w => I w

/-- From a state with `P` the step ends in a result with `Q`, in a failure with `I` or in a
cancellation with `J`. -/
def Meets (I J P : RunState σ → Prop) (x : Run σ α) (Q : α → RunState σ → Prop) : Prop :=
  ∀ w, P w → Ends I J Q (x w)

namespace Meets

theorem done {x : Run σ α} {w w' : RunState σ} {a : α} (hx : Meets I J P x Q) (hP : P w)
    (h : x w = (.done a, w')) : Q a w' := by
  have hx := hx w hP
  rwa [h] at hx

/-- A step that neither fails nor is cancelled ends in a result. -/
theorem exists_done {x : Run σ α} {w : RunState σ}
    (hx : Meets (fun _ => False) (fun _ => False) P x Q) (hP : P w) :
    ∃ a w', x w = (.done a, w') ∧ Q a w' := by
  have hx := hx w hP
  rcases hr : x w with ⟨a | e | _, w'⟩
  · rw [hr] at hx
    exact ⟨a, w', rfl, hx⟩
  · rw [hr] at hx
    exact hx.elim
  · rw [hr] at hx
    exact hx.elim

theorem trivial {x : Run σ α} :
    Meets (fun _ => True) (fun _ => True) P x fun _ _ => True := by
  intro w _
  rcases x w with ⟨a | e | _, w'⟩ <;> exact True.intro

/-- Assume more, and conclude less. -/
theorem mono {x : Run σ α} (hx : Meets I J P x Q) (hP : ∀ w, P' w → P w)
    (hQ : ∀ a w, Q a w → Q' a w) (hI : ∀ w, I w → I' w) (hJ : ∀ w, J w → J' w) :
    Meets I' J' P' x Q' := by
  intro w hw
  have hx := hx w (hP w hw)
  rcases hr : x w with ⟨a | e | _, w'⟩
  · rw [hr] at hx
    exact hQ a w' hx
  · rw [hr] at hx
    exact hI w' hx
  · rw [hr] at hx
    exact hJ w' hx

theorem of_imp {x : Run σ α} (hP : ∀ w, P' w → P w) (hx : Meets I J P x Q) : Meets I J P' x Q :=
  hx.mono hP (fun _ _ h => h) (fun _ h => h) fun _ h => h

theorem imp {x : Run σ α} (hx : Meets I J P x Q) (hQ : ∀ a w, Q a w → Q' a w) :
    Meets I J P x Q' :=
  hx.mono (fun _ h => h) hQ (fun _ h => h) fun _ h => h

/-- Conclude less of failures. -/
theorem of_failed {x : Run σ α} (hx : Meets I J P x Q) (hI : ∀ w, I w → I' w) :
    Meets I' J P x Q :=
  hx.mono (fun _ h => h) (fun _ _ h => h) hI fun _ h => h

/-- A fact that does not depend on the state. -/
theorem of_fact {p : Prop} {x : Run σ α} (h : p → Meets I J P x Q) :
    Meets I J (fun w => p ∧ P w) x Q :=
  fun w hw => h hw.1 w hw.2

theorem of_exists {ι : Type} {P : ι → RunState σ → Prop} {x : Run σ α}
    (h : ∀ i, Meets I J (P i) x Q) : Meets I J (fun w => ∃ i, P i w) x Q :=
  fun w ⟨i, hw⟩ => h i w hw

theorem pure {a : α} (h : ∀ w, P w → Q a w) : Meets I J P (Run.pure a) Q :=
  h

theorem bind {x : Run σ β} {f : β → Run σ α} (hx : Meets I J P x R)
    (hf : ∀ b, Meets I J (R b) (f b) Q) : Meets I J P (x >>= f) Q := by
  intro w hw
  have hx := hx w hw
  change Ends I J Q (Run.bind x f w)
  unfold Run.bind
  rcases hr : x w with ⟨b | e | _, w'⟩
  · rw [hr] at hx
    exact hf b w' hx
  · rwa [hr] at hx
  · rwa [hr] at hx

theorem attempt {x : Run σ α} (hx : Meets I J P x Q) :
    Meets I' J P x.attempt (Tried I Q) := by
  intro w hw
  have hx := hx w hw
  unfold Run.attempt
  rcases hr : x w with ⟨a | e | _, w'⟩ <;> rwa [hr] at hx

/-- Going on after a step that cannot fail. -/
theorem attempt_bind {x : Run σ β} {f : Result β → Run σ α} (hx : Meets (fun _ => False) J P x R)
    (hf : ∀ b, Meets I J (R b) (f (.ok b)) Q) : Meets I J P (x.attempt >>= f) Q := by
  refine hx.attempt.bind fun r => ?_
  cases r with
  | ok b => exact hf b
  | error e => exact fun _ hw => hw.elim

theorem onCancel {x : Run σ α} {cleanup : RunState σ → RunState σ} (hx : Meets I J P x Q)
    (hc : ∀ w, J w → J (cleanup w)) : Meets I J P (x.onCancel cleanup) Q := by
  intro w hw
  have hx := hx w hw
  unfold Run.onCancel
  rcases hr : x w with ⟨a | e | _, w'⟩
  · rwa [hr] at hx
  · rwa [hr] at hx
  · rw [hr] at hx
    exact hc w' hx

theorem fail {e : Error} (h : ∀ w, P w → I w) : Meets I J P (Run.fail e) Q :=
  h

theorem cancel (h : ∀ w, P w → J w) : Meets I J P Run.cancel Q :=
  h

theorem ofResult {r : Result α} (hok : ∀ a, r = .ok a → ∀ w, P w → Q a w) (h : ∀ w, P w → I w) :
    Meets I J P (Run.ofResult r) Q := by
  cases r with
  | ok a => exact hok a rfl
  | error e => exact h

theorem state : Meets I J P Run.state fun a w => P w ∧ w = a :=
  fun _ hw => ⟨hw, rfl⟩

theorem session : Meets I J P Run.session fun s w => P w ∧ w.session = s :=
  fun _ hw => ⟨hw, rfl⟩

theorem modify {f : RunState σ → RunState σ} {Q : Unit → RunState σ → Prop}
    (h : ∀ w, P w → Q () (f w)) : Meets I J P (Run.modify f) Q :=
  h

theorem ite {p : Prop} [Decidable p] {x y : Run σ α} (hx : p → Meets I J P x Q)
    (hy : ¬ p → Meets I J P y Q) : Meets I J P (if p then x else y) Q := by
  split
  · next hp => exact hx hp
  · next hp => exact hy hp

end Meets

/-! ## Invariants -/

/-- The step keeps `I`, unless it is cancelled; then `J` holds. -/
abbrev Keeps (I J : RunState σ → Prop) (x : Run σ α) : Prop :=
  Meets I J I x fun _ => I

namespace Keeps

theorem pure {a : α} : Keeps I J (Run.pure a : Run σ α) :=
  fun _ h => h

theorem fail {e : Error} : Keeps I J (Run.fail e : Run σ α) :=
  fun _ h => h

theorem ofResult (r : Result α) : Keeps I J (Run.ofResult r : Run σ α) :=
  Meets.ofResult (fun _ _ _ h => h) fun _ h => h

theorem bind {x : Run σ β} {f : β → Run σ α} (hx : Keeps I J x) (hf : ∀ b, Keeps I J (f b)) :
    Keeps I J (x >>= f) :=
  Meets.bind hx hf

theorem attempt {x : Run σ α} (hx : Keeps I J x) : Keeps I J x.attempt :=
  (Meets.attempt hx).imp fun r w h => by cases r <;> exact h

theorem session {f : Session → Run σ α} (hf : ∀ s, Keeps I J (f s)) :
    Keeps I J (Run.session >>= f) :=
  Meets.session.bind fun s => (hf s).of_imp fun _ h => h.1

theorem state {f : RunState σ → Run σ α} (hf : ∀ w, Keeps I J (f w)) :
    Keeps I J (Run.state >>= f) :=
  Meets.state.bind fun w => (hf w).of_imp fun _ h => h.1

end Keeps

/-! ## Steps that do nothing to connections -/

/-- From one state to the other only messages are logged; the session is the same and so are the
connections. -/
structure Quiet (w w' : RunState σ) : Prop where
  session : w'.session = w.session
  nextLink : w'.nextLink = w.nextLink
  journal : ∃ logs, w'.journal = logs ++ w.journal ∧
    ∀ e ∈ logs, ∃ level text, e = .logged level text

namespace Quiet

variable {w w' w'' : RunState σ}

theorem of_eq (hs : w'.session = w.session) (hn : w'.nextLink = w.nextLink)
    (hj : w'.journal = w.journal) : Quiet w w' :=
  ⟨hs, hn, [], hj, nofun⟩

theorem refl : Quiet w w :=
  of_eq rfl rfl rfl

/-- The time alone has changed. It is a variable here, for the checker must not count up to it. -/
theorem clock (time : Nat) : Quiet w { w with clock := time } :=
  of_eq rfl rfl rfl

theorem trans (h : Quiet w w') (h' : Quiet w' w'') : Quiet w w'' := by
  obtain ⟨logs, hj, hlogs⟩ := h.journal
  obtain ⟨logs', hj', hlogs'⟩ := h'.journal
  refine ⟨h'.session.trans h.session, h'.nextLink.trans h.nextLink, logs' ++ logs, ?_, ?_⟩
  · rw [hj', hj, List.append_assoc]
  · intro e he
    rcases List.mem_append.mp he with he | he
    · exact hlogs' e he
    · exact hlogs e he

end Quiet

/-- A step that does nothing to the session and its connections. -/
def IsQuiet (x : Run σ α) : Prop :=
  ∀ w, Quiet w (x w).2

/-- A predicate that messages and the state of the servers do not matter to. -/
def Stable (P : RunState σ → Prop) : Prop :=
  ∀ w w', Quiet w w' → P w → P w'

theorem Meets.quiet {x : Run σ α} (hx : IsQuiet x) (hP : Stable P) (hI : ∀ w, P w → I w)
    (hJ : ∀ w, P w → J w) : Meets I J P x fun _ => P := by
  intro w hw
  have hw' := hP w _ (hx w) hw
  rcases hr : x w with ⟨a | e | _, w'⟩
  · rwa [hr] at hw'
  · rw [hr] at hw'
    exact hI w' hw'
  · rw [hr] at hw'
    exact hJ w' hw'

theorem Meets.log (hP : Stable P) (level : LogLevel) (text : String) :
    Meets I J P (Run.log level text) fun _ => P :=
  .modify fun w hw => hP w _
    ⟨rfl, rfl, [_], rfl, fun _ he => ⟨level, text, List.mem_singleton.mp he⟩⟩ hw

namespace IsQuiet

theorem pure {a : α} : IsQuiet (Run.pure a : Run σ α) :=
  fun _ => .refl

theorem bind {x : Run σ β} {f : β → Run σ α} (hx : IsQuiet x) (hf : ∀ b, IsQuiet (f b)) :
    IsQuiet (x >>= f) := by
  intro w
  have hx := hx w
  change Quiet w (Run.bind x f w).2
  unfold Run.bind
  rcases hr : x w with ⟨b | e | _, w'⟩
  · rw [hr] at hx
    exact hx.trans (hf b w')
  · rwa [hr] at hx
  · rwa [hr] at hx

theorem ite {p : Prop} [Decidable p] {x y : Run σ α} (hx : IsQuiet x) (hy : IsQuiet y) :
    IsQuiet (if p then x else y) := by
  split
  · exact hx
  · exact hy

theorem state : IsQuiet (Run.state : Run σ (RunState σ)) :=
  fun _ => .refl

theorem modify {f : RunState σ → RunState σ} (h : ∀ w, Quiet w (f w)) : IsQuiet (Run.modify f) :=
  h

theorem now : IsQuiet (Run.now : Run σ Nat) :=
  fun _ => .clock _

theorem sleep (ms : Nat) : IsQuiet (Run.sleep ms : Run σ Unit) :=
  fun _ => .clock _

theorem log (level : LogLevel) (text : String) : IsQuiet (Run.log level text : Run σ Unit) :=
  fun _ => ⟨rfl, rfl, [_], rfl, fun _ he => ⟨level, text, List.mem_singleton.mp he⟩⟩

theorem ask (call : σ → Outcome α × σ) : IsQuiet (Run.ask call) :=
  fun _ => .of_eq rfl rfl rfl

theorem observe (look : σ → α × σ) : IsQuiet (Run.observe look) :=
  fun _ => .of_eq rfl rfl rfl

end IsQuiet

end QueryKit.Run
