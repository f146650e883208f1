import QueryKit.Proofs.Session.Meets
import QueryKit.Proofs.Session.Sends

/-!
# Statements of transactions that fail

`Run.StopsAtFailure x`: when a statement of the step `x` fails, the connection on which it was sent
is closed at once, the session holds no master connection and is in no transaction any more, and the
step fails. `Client.begin_stops`, `Client.commit_stops`, `Client.rollBack_stops` and
`Client.setIsolationLevel_stops` say so of the operations on transactions, in every state.
-/

namespace QueryKit

/-- A session without a master connection and without a transaction. -/
structure Session.Cleared (s : Session) : Prop where
  level : s.level = 0
  isolation : s.isolation = none
  master : s.master = none

namespace Run

variable {σ α β : Type}

/-- From a state, a statement that fails is the last one of the step. Its connection is closed, and
the session is cleared. -/
def StopsFrom (w : RunState σ) (x : Run σ α) : Prop :=
  ∃ new, (x w).2.journal = new ++ w.journal ∧
    ∀ link sql values, .sent link sql values .failed ∈ new →
      (∃ e, (x w).1 = .failed e) ∧ (x w).2.session.Cleared ∧
        ∃ before, new = .discarded link :: .sent link sql values .failed :: before

/-- In every state, a statement that fails is the last one of the step. -/
def StopsAtFailure (x : Run σ α) : Prop :=
  ∀ w, StopsFrom w x

theorem StopsFrom.bind {x : Run σ α} {f : α → Run σ β} {w : RunState σ} (hx : StopsFrom w x)
    (hf : ∀ a w', x w = (.done a, w') → StopsFrom w' (f a)) : StopsFrom w (x >>= f) := by
  obtain ⟨new, hnew, hstop⟩ := hx
  change StopsFrom w (Run.bind x f)
  unfold StopsFrom Run.bind
  rcases hr : x w with ⟨a | e | _, w'⟩
  · rw [hr] at hnew hstop
    obtain ⟨more, hmore, hstop'⟩ := hf a w' hr
    refine ⟨more ++ new, ?_, fun link sql values hmem => ?_⟩
    · rw [hmore, hnew, List.append_assoc]
    · rcases List.mem_append.mp hmem with hmem | hmem
      · obtain ⟨hfailed, hcleared, before, rfl⟩ := hstop' link sql values hmem
        exact ⟨hfailed, hcleared, before ++ new, rfl⟩
      · obtain ⟨⟨e, he⟩, -⟩ := hstop link sql values hmem
        cases he
  · rw [hr] at hnew hstop
    refine ⟨new, hnew, fun link sql values hmem => ?_⟩
    exact ⟨⟨e, rfl⟩, (hstop link sql values hmem).2⟩
  · rw [hr] at hnew hstop
    refine ⟨new, hnew, fun link sql values hmem => ?_⟩
    obtain ⟨⟨e, he⟩, -⟩ := hstop link sql values hmem
    cases he

namespace StopsAtFailure

theorem of_sends {x : Run σ α} (h : Sends (fun _ _ => False) x) : StopsAtFailure x := by
  intro w
  obtain ⟨new, hnew, hsent⟩ := h w
  exact ⟨new, hnew, fun _ _ _ hmem => (hsent _ hmem).elim⟩

theorem bind {x : Run σ α} {f : α → Run σ β} (hx : StopsAtFailure x)
    (hf : ∀ a, StopsAtFailure (f a)) : StopsAtFailure (x >>= f) :=
  fun w => (hx w).bind fun a w' _ => hf a w'

theorem ite {p : Prop} [Decidable p] {x y : Run σ α} (hx : StopsAtFailure x)
    (hy : StopsAtFailure y) : StopsAtFailure (if p then x else y) := by
  split
  · exact hx
  · exact hy

theorem pure (a : α) : StopsAtFailure (Run.pure a : Run σ α) :=
  of_sends (.pure a)

theorem fail (e : Error) : StopsAtFailure (Run.fail e : Run σ α) :=
  of_sends (.fail e)

theorem log (level : LogLevel) (text : String) :
    StopsAtFailure (Run.log level text : Run σ Unit) :=
  of_sends (.log level text)

theorem session {f : Session → Run σ α} (hf : ∀ s, StopsAtFailure (f s)) :
    StopsAtFailure (Run.session >>= f) :=
  (of_sends .session).bind hf

theorem modifySession (f : Session → Session) :
    StopsAtFailure (Run.modifySession f : Run σ Unit) :=
  of_sends (.modifySession f)

end StopsAtFailure

end Run

namespace Client

open Run

variable {σ : Type} {c : Client σ}

/-- The master connection that is found is the one that the session holds. -/
theorem mainLinkAt_holds (attempt : Nat) :
    Meets (fun _ => True) (fun _ => True) (fun _ => True) (c.mainLinkAt attempt)
      fun link w => w.session.master = some link := by
  refine Meets.session.bind fun s => ?_
  cases hmaster : s.master with
  | some link =>
    refine .pure ?_
    rintro w ⟨-, rfl⟩
    exact hmaster
  | none =>
    refine Meets.bind .trivial fun link => ?_
    exact Meets.bind (R := fun _ w => w.session.master = some link) (.modify fun _ _ => rfl)
      fun _ => .pure fun _ h => h

theorem discardMaster_eq {w : RunState σ} {l : Link} (h : w.session.master = some l) :
    discardMaster w = (.done (),
      { w with
        session := { w.session with master := none, level := 0, isolation := none }
        journal := .discarded l :: w.journal }) := by
  simp [discardMaster, dropMaster, Bind.bind, Run.bind, Run.session, Run.modifySession, Run.modify,
    Run.note, Session.resetTransaction, h]

theorem control_stops (sql : String) : StopsAtFailure (c.control sql) := by
  intro w
  have hmain : StopsFrom w c.mainLink.attempt := StopsAtFailure.of_sends mainLink_sends.attempt w
  refine hmain.bind fun r w' hr => ?_
  cases r with
  | error e => exact ((StopsAtFailure.modifySession _).bind fun _ => .fail e) w'
  | ok link =>
    have hheld : Meets (fun _ => True) (fun _ => True) (fun _ => True) c.mainLink.attempt
        (Tried (fun _ => True) fun link w => w.session.master = some link) :=
      (mainLinkAt_holds 0).attempt
    have hmaster : w'.session.master = some link := hheld.done trivial hr
    change StopsFrom w' (Run.bind (Run.send link sql [] (c.backend.execute link sql [])).attempt _)
    unfold StopsFrom Run.bind Run.attempt Run.send
    rcases c.backend.execute link sql [] w'.servers with ⟨a | e | _, servers⟩
    · refine ⟨[_], rfl, fun l text values hmem => ?_⟩
      cases List.mem_singleton.mp hmem
    · dsimp only
      simp only [Bind.bind, Run.bind]
      rw [discardMaster_eq (l := link) (by exact hmaster)]
      refine ⟨[_, _], rfl, fun l text values hmem => ?_⟩
      have hne : Event.sent l text values .failed ≠ .discarded link := fun h => by cases h
      cases List.mem_singleton.mp (List.mem_of_ne_of_mem hne hmem)
      exact ⟨⟨_, rfl⟩, ⟨rfl, rfl, rfl⟩, [], rfl⟩
    · refine ⟨[_], rfl, fun l text values hmem => ?_⟩
      cases List.mem_singleton.mp hmem

theorem controlAll_stops : ∀ statements : List String, StopsAtFailure (c.controlAll statements)
  | [] => .pure ()
  | sql :: statements => (control_stops sql).bind fun _ => controlAll_stops statements

theorem release_stops (force : Bool) : StopsAtFailure (c.release force) :=
  .of_sends (release_sends force)

theorem begin_stops (isolation : Option IsolationLevel) : StopsAtFailure (c.begin isolation) := by
  refine .session fun s => .ite ?_ ?_
  · refine (StopsAtFailure.of_sends (.ofResult _)).bind fun statements => ?_
    refine (StopsAtFailure.log _ _).bind fun _ => (controlAll_stops statements).bind fun _ => ?_
    exact .modifySession _
  · refine .ite ?_ ?_
    · refine (StopsAtFailure.log _ _).bind fun _ => (control_stops _).bind fun _ => ?_
      exact .modifySession _
    · exact (StopsAtFailure.log _ _).bind fun _ => .fail _

theorem endOutermost_stops (message sql : String) : StopsAtFailure (c.endOutermost message sql) :=
  (StopsAtFailure.log _ _).bind fun _ => (StopsAtFailure.modifySession _).bind fun _ =>
    (control_stops sql).bind fun _ => release_stops true

theorem leaveLevel_stops : StopsAtFailure (leaveLevel : Run σ Nat) :=
  (StopsAtFailure.modifySession _).bind fun _ => .session fun _ => .pure _

theorem commit_stops : StopsAtFailure c.commit := by
  refine .session fun s => .ite ?_ ?_
  · refine leaveLevel_stops.bind fun level => .ite (endOutermost_stops _ _) (.ite ?_ (.log _ _))
    exact (StopsAtFailure.log _ _).bind fun _ => control_stops _
  · exact (release_stops true).bind fun _ => .fail _

theorem rollBack_stops : StopsAtFailure c.rollBack := by
  refine .session fun s => .ite ?_ (release_stops true)
  refine leaveLevel_stops.bind fun level => .ite (endOutermost_stops _ _) (.ite ?_ (.log _ _))
  exact (StopsAtFailure.log _ _).bind fun _ => control_stops _

theorem setIsolationLevel_stops (isolation : IsolationLevel) :
    StopsAtFailure (c.setIsolationLevel isolation) := by
  refine .session fun s => .ite ?_ ?_
  · refine (StopsAtFailure.log _ _).bind fun _ => ?_
    exact (StopsAtFailure.of_sends (.ofResult _)).bind fun sql => control_stops sql
  · exact (release_stops true).bind fun _ => .fail _

end Client

end QueryKit
