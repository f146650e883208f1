import QueryKit.Proofs.Session.Changes
import QueryKit.Session.Recorder

/-!
# What a step sends

`Run.Sends P x`: however the step `x` ends, it only adds events to the journal, and `P` holds of the
text and the values of every statement among them.

- The rules (`Sends.bind`, `Sends.attempt`, …) follow the ways in which steps are put together.
- Opening, releasing and replacing connections sends no statement (`Client.linkFor_sends`,
  `Client.release_sends`, `Client.reconnect_sends`, …).
-/

namespace QueryKit

instance {σ : Type} : LawfulMonad (Run σ) :=
  LawfulMonad.mk' (Run σ)
    (fun x => by
      funext w
      change Run.bind x Run.pure w = x w
      unfold Run.bind
      rcases x w with ⟨a | e | _, w'⟩ <;> rfl)
    (fun a f => rfl)
    (fun x f g => by
      funext w
      change Run.bind (Run.bind x f) g w = Run.bind x (fun a => Run.bind (f a) g) w
      simp only [Run.bind]
      rcases x w with ⟨a | e | _, w'⟩ <;> rfl)

theorem Run.ofResult_done {σ α : Type} {r : Result α} {w : RunState σ} {a : α}
    (h : (Run.ofResult r w).1 = .done a) : r = .ok a := by
  cases r with
  | error e => cases h
  | ok b =>
    cases h
    rfl

namespace Run

variable {σ α β : Type} {P : String → List Value → Prop}

/-- The step only adds events to the journal, and `P` holds of every statement that it sends. -/
def Sends (P : String → List Value → Prop) (x : Run σ α) : Prop :=
  ∀ w, ∃ new, (x w).2.journal = new ++ w.journal ∧ ∀ e ∈ new, e.Sent P

/-- From one state to the other events are added to the journal, and `P` holds of every statement
among them. -/
def Adds (P : String → List Value → Prop) (w w' : RunState σ) : Prop :=
  ∃ new, w'.journal = new ++ w.journal ∧ ∀ e ∈ new, e.Sent P

theorem sends_wiring : Wiring (Adds P : RunState σ → RunState σ → Prop) where
  trans := by
    rintro w w' w'' ⟨new, hnew, hsent⟩ ⟨more, hmore, hsent'⟩
    refine ⟨more ++ new, by rw [hmore, hnew, List.append_assoc], fun e he => ?_⟩
    rcases List.mem_append.mp he with he | he
    · exact hsent' e he
    · exact hsent e he
  free _ _ _ _ _ _ _ := ⟨[], rfl, nofun⟩
  note w e he := by
    refine ⟨[e], rfl, fun _ h => ?_⟩
    cases List.mem_singleton.mp h
    cases e with
    | sent => exact he.elim
    | _ => trivial

namespace Sends

theorem of_journal_eq {x : Run σ α} (h : ∀ w, (x w).2.journal = w.journal) : Sends P x :=
  fun w => ⟨[], h w, nofun⟩

/-- What holds of every statement that is sent may be weakened. -/
theorem mono {Q : String → List Value → Prop} {x : Run σ α} (hx : Sends P x)
    (h : ∀ sql values, P sql values → Q sql values) : Sends Q x := by
  intro w
  obtain ⟨new, hnew, hsent⟩ := hx w
  refine ⟨new, hnew, fun e he => ?_⟩
  have hsent := hsent e he
  cases e with
  | sent link sql values ending => exact h sql values hsent
  | _ => trivial

theorem pure (a : α) : Sends P (Run.pure a : Run σ α) :=
  Changes.pure sends_wiring a

theorem bind {x : Run σ α} {f : α → Run σ β} (hx : Sends P x) (hf : ∀ a, Sends P (f a)) :
    Sends P (x >>= f) :=
  Changes.bind sends_wiring hx hf

theorem attempt {x : Run σ α} (hx : Sends P x) : Sends P x.attempt :=
  Changes.attempt (R := Adds P) hx

theorem onCancel {x : Run σ α} {cleanup : RunState σ → RunState σ} (hx : Sends P x)
    (hc : ∀ w, (cleanup w).journal = w.journal) : Sends P (x.onCancel cleanup) := by
  intro w
  obtain ⟨new, hnew, hsent⟩ := hx w
  refine ⟨new, ?_, hsent⟩
  rw [← hnew]
  unfold Run.onCancel
  rcases x w with ⟨a | e | _, w'⟩
  · rfl
  · rfl
  · exact hc w'

theorem fail (e : Error) : Sends P (Run.fail e : Run σ α) :=
  Changes.fail sends_wiring e

theorem cancel : Sends P (Run.cancel : Run σ α) :=
  Changes.cancel sends_wiring

theorem ofResult : ∀ r : Result α, Sends P (Run.ofResult r : Run σ α)
  | .ok a => pure a
  | .error e => fail e

theorem state : Sends P (Run.state : Run σ (RunState σ)) :=
  of_journal_eq fun _ => rfl

theorem session : Sends P (Run.session : Run σ Session) :=
  of_journal_eq fun _ => rfl

theorem modify {f : RunState σ → RunState σ} (h : ∀ w, (f w).journal = w.journal) :
    Sends P (Run.modify f) :=
  of_journal_eq h

theorem modifySession (f : Session → Session) : Sends P (Run.modifySession f : Run σ Unit) :=
  Changes.modifySession sends_wiring f

theorem now : Sends P (Run.now : Run σ Nat) :=
  Changes.now sends_wiring

theorem sleep (ms : Nat) : Sends P (Run.sleep ms : Run σ Unit) :=
  Changes.sleep sends_wiring ms

theorem ask (call : σ → Outcome α × σ) : Sends P (Run.ask call) :=
  Changes.ask sends_wiring call

theorem observe (look : σ → α × σ) : Sends P (Run.observe look) :=
  Changes.observe sends_wiring look

theorem note {e : Event} (h : e.Sent P) : Sends P (Run.note e : Run σ Unit) :=
  fun _ => ⟨[e], rfl, fun _ he => List.mem_singleton.mp he ▸ h⟩

theorem log (level : LogLevel) (text : String) : Sends P (Run.log level text : Run σ Unit) :=
  note trivial

theorem send {link : Link} {sql : String} {values : List Value} {call : σ → Outcome α × σ}
    (h : P sql values) : Sends P (Run.send link sql values call) :=
  fun _ => ⟨[_], rfl, fun _ he => List.mem_singleton.mp he ▸ h⟩

theorem ite {p : Prop} [Decidable p] {x y : Run σ α} (hx : Sends P x) (hy : Sends P y) :
    Sends P (if p then x else y) :=
  Changes.ite (R := Adds P) hx hy

end Sends

end Run

/-! ## Connections -/

namespace Client

open Run

variable {σ : Type} {c : Client σ} {P : String → List Value → Prop}

theorem mainLink_sends : Sends P c.mainLink :=
  mainLink_changes sends_wiring

theorem linkFor_sends (read : Bool) : Sends P (c.linkFor read) :=
  linkFor_changes sends_wiring read

theorem release_sends (force : Bool) : Sends P (c.release force) :=
  release_changes sends_wiring force

theorem reconnect_sends (attempt : Nat) : Sends P (c.reconnect attempt) :=
  reconnect_changes sends_wiring attempt

theorem tableSchema_sends (name : String) : Sends P (c.tableSchema name) := by
  refine Sends.state.bind fun w => ?_
  split
  · exact .pure _
  · refine mainLink_sends.bind fun link => (Sends.ask _).bind fun loaded => ?_
    refine (release_sends false).bind fun _ => ?_
    split
    · exact .bind (.modify fun _ => rfl) fun _ => .pure _
    · exact .pure _

/-- A client of one server that records what is sent to it, to rehearse steps with. -/
def rehearsal : Client Recorder where
  connection :=
    { config := { enableLogging := false }
      dsn := "postgres://db"
      driver := "postgres"
      dialect := .postgres
      primary := some ⟨.primary, "postgres://db"⟩
      masters := []
      replicas := []
      retry := none
      cacheCapacity := none }
  backend := recorder
  patience := 1

/-- The state in which a rehearsal starts. -/
def rehearsalState : RunState Recorder :=
  .ofConnection rehearsal.connection fun _ => .empty

end Client

end QueryKit
