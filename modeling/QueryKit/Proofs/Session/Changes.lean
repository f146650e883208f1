import QueryKit.Command.Fetch
import QueryKit.Proofs.Session.Meets

/-!
# What a step changes

`Run.Changes R x`: however the step `x` ends, `R` relates the state before it to the state after.

- `Run.Wiring R`: what `R` has to allow so that connections can be opened, replaced and given back.
  Whatever they do, those operations change no more (`Client.linkFor_changes`,
  `Client.release_changes`, …), and neither does a command that is run and sends what `R` allows
  (`Client.runCommand_changes`).
- `Run.Onward`: the journal grows, and the caches and the flights are the same.
-/

namespace QueryKit

/-- `P` holds of an event that is a statement. -/
def Event.Sent (P : String → List Value → Prop) : Event → Prop
  | .sent _ sql values _ => P sql values
  | _ => True

namespace Run

variable {σ α β : Type} {R : RunState σ → RunState σ → Prop}

/-- `R` relates the state before a step to the one after it. -/
def Changes (R : RunState σ → RunState σ → Prop) (x : Run σ α) : Prop :=
  ∀ w, R w (x w).2

/-- What happens to connections is allowed: new events that are no statements, and any change to the
session, the servers, the clock, the schemas and what is known of the servers. -/
structure Wiring (R : RunState σ → RunState σ → Prop) : Prop where
  trans : ∀ {w w' w''}, R w w' → R w' w'' → R w w''
  free : ∀ w servers clock nextLink dead schemas session,
    R w { w with servers, clock, nextLink, dead, schemas, session }
  note : ∀ w e, e.Sent (fun _ _ => False) → R w { w with journal := e :: w.journal }

theorem Wiring.refl (hR : Wiring R) (w : RunState σ) : R w w :=
  hR.free w w.servers w.clock w.nextLink w.dead w.schemas w.session

namespace Changes

theorem pure (hR : Wiring R) (a : α) : Changes R (Run.pure a : Run σ α) :=
  hR.refl

theorem bind (hR : Wiring R) {x : Run σ α} {f : α → Run σ β} (hx : Changes R x)
    (hf : ∀ a, Changes R (f a)) : Changes R (x >>= f) := by
  intro w
  have hx := hx w
  change R w (Run.bind x f w).2
  unfold Run.bind
  rcases hr : x w with ⟨a | e | _, w'⟩
  · rw [hr] at hx
    exact hR.trans hx (hf a w')
  · rwa [hr] at hx
  · rwa [hr] at hx

theorem attempt {x : Run σ α} (hx : Changes R x) : Changes R x.attempt := by
  intro w
  have hx := hx w
  unfold Run.attempt
  rcases hr : x w with ⟨a | e | _, w'⟩ <;> rwa [hr] at hx

theorem ite {p : Prop} [Decidable p] {x y : Run σ α} (hx : Changes R x) (hy : Changes R y) :
    Changes R (if p then x else y) := by
  split
  · exact hx
  · exact hy

theorem state {f : RunState σ → Run σ α} (hf : ∀ w, Changes R (f w)) :
    Changes R (Run.state >>= f) :=
  fun w => hf w w

theorem session {f : Session → Run σ α} (hf : ∀ s, Changes R (f s)) :
    Changes R (Run.session >>= f) :=
  fun w => hf w.session w

variable (hR : Wiring R)
include hR

theorem fail (e : Error) : Changes R (Run.fail e : Run σ α) :=
  hR.refl

theorem cancel : Changes R (Run.cancel : Run σ α) :=
  hR.refl

theorem modifySession (f : Session → Session) : Changes R (Run.modifySession f : Run σ Unit) :=
  fun w => hR.free w w.servers w.clock w.nextLink w.dead w.schemas (f w.session)

theorem now : Changes R (Run.now : Run σ Nat) :=
  fun w => hR.free w w.servers _ w.nextLink w.dead w.schemas w.session

theorem sleep (ms : Nat) : Changes R (Run.sleep ms : Run σ Unit) :=
  fun w => hR.free w w.servers _ w.nextLink w.dead w.schemas w.session

theorem ask (call : σ → Outcome α × σ) : Changes R (Run.ask call) :=
  fun w => hR.free w _ w.clock w.nextLink w.dead w.schemas w.session

theorem observe (look : σ → α × σ) : Changes R (Run.observe look) :=
  fun w => hR.free w _ w.clock w.nextLink w.dead w.schemas w.session

theorem note {e : Event} (he : e.Sent fun _ _ => False) :
    Changes R (Run.note e : Run σ Unit) :=
  fun w => hR.note w e he

theorem log (level : LogLevel) (text : String) : Changes R (Run.log level text : Run σ Unit) :=
  note hR trivial

end Changes

/-- A step that changes no more than `R` allows keeps what `R` keeps. -/
theorem Changes.keeps {I : RunState σ → Prop} {x : Run σ α} (hx : Changes R x)
    (hI : ∀ w w', R w w' → I w → I w') : Keeps I I x := by
  intro w hw
  have hw' := hI w _ (hx w) hw
  rcases hr : x w with ⟨a | e | _, w'⟩ <;> rwa [hr] at hw'

end Run

namespace Client

open Run

variable {σ α : Type} {c : Client σ} {R : RunState σ → RunState σ → Prop} (hR : Wiring R)
include hR

/-! ## Connections -/

theorem isServerDead_changes (dsn : String) : Changes R (isServerDead dsn : Run σ Bool) := by
  refine .state fun w => ?_
  split
  · exact .pure hR _
  · refine .bind hR (.now hR) fun _ =>
      .ite (.pure hR _) (.bind hR (fun w => ?_) fun _ => .pure hR _)
    exact hR.free w w.servers w.clock w.nextLink _ w.schemas w.session

theorem markServerDead_changes (dsn : String) : Changes R (c.markServerDead dsn) :=
  .bind hR (.now hR) fun _ w => hR.free w w.servers w.clock w.nextLink _ w.schemas w.session

theorem acquire_changes (pool : Pool) : Changes R (c.acquire pool) := by
  refine .bind hR (.ask hR _) fun _ => .state fun w => ?_
  refine .bind hR (fun w => hR.free w w.servers w.clock _ w.dead w.schemas w.session) fun _ => ?_
  exact .bind hR (.note hR trivial) fun _ => .pure hR _

theorem openFirst_changes : ∀ pools : List Pool, Changes R (c.openFirst pools)
  | [] => .pure hR _
  | pool :: pools => by
    refine .bind hR (isServerDead_changes hR pool.dsn) fun dead => .ite (openFirst_changes pools) ?_
    refine .bind hR (acquire_changes hR pool).attempt fun r => ?_
    split
    · exact .pure hR _
    · exact .bind hR (.log hR _ _) fun _ =>
        .bind hR (markServerDead_changes hR _) fun _ => openFirst_changes pools

theorem arranged_changes (shuffled : Bool) (pools : List Pool) :
    Changes R (c.arranged shuffled pools) :=
  .ite (.observe hR _) (.pure hR _)

theorem openMain_changes (attempt : Nat) : Changes R (c.openMain attempt) := by
  refine .ite ?_ ?_
  · refine .bind hR (arranged_changes hR _ _) fun pools =>
      .bind hR (openFirst_changes hR pools) fun found => ?_
    split
    · exact .pure hR _
    · exact .fail hR _
  · split
    · exact .fail hR _
    · exact .bind hR (acquire_changes hR _) fun _ =>
        .ite (.bind hR (.log hR _ _) fun _ => .pure hR _) (.pure hR _)

theorem openReplica_changes : Changes R c.openReplica :=
  .ite (.bind hR (arranged_changes hR _ _) fun pools => openFirst_changes hR pools) (.pure hR _)

theorem mainLinkAt_changes (attempt : Nat) : Changes R (c.mainLinkAt attempt) := by
  refine .session fun s => ?_
  split
  · exact .pure hR _
  · exact .bind hR (openMain_changes hR attempt) fun _ =>
      .bind hR (.modifySession hR _) fun _ => .pure hR _

theorem mainLink_changes : Changes R c.mainLink :=
  mainLinkAt_changes hR 0

theorem linkFor_changes (read : Bool) : Changes R (c.linkFor read) := by
  refine .session fun s => .ite (mainLink_changes hR) ?_
  split
  · exact .pure hR _
  · refine .bind hR (openReplica_changes hR) fun found => ?_
    split
    · exact .bind hR (.modifySession hR _) fun _ => .pure hR _
    · exact .bind hR (.modifySession hR _) fun _ => mainLink_changes hR

theorem releaseMaster_changes : Changes R (releaseMaster : Run σ Unit) := by
  refine .session fun s => ?_
  split
  · exact .bind hR (.modifySession hR _) fun _ => .note hR trivial
  · exact .pure hR _

theorem releaseReplica_changes : Changes R (releaseReplica : Run σ Unit) := by
  refine .session fun s => ?_
  split
  · exact .bind hR (.modifySession hR _) fun _ => .note hR trivial
  · exact .pure hR _

theorem dropMaster_changes : Changes R (dropMaster : Run σ Unit) := by
  refine .session fun s => ?_
  split
  · exact .bind hR (.modifySession hR _) fun _ => .note hR trivial
  · exact .pure hR _

theorem dropReplica_changes : Changes R (dropReplica : Run σ Unit) := by
  refine .session fun s => ?_
  split
  · exact .bind hR (.modifySession hR _) fun _ => .note hR trivial
  · exact .pure hR _

theorem release_changes (force : Bool) : Changes R (c.release force) :=
  .session fun _ => .ite
    (.bind hR (releaseMaster_changes hR) fun _ =>
      .bind hR (releaseReplica_changes hR) fun _ => .modifySession hR _)
    (.pure hR _)

theorem reconnect_changes (attempt : Nat) : Changes R (c.reconnect attempt) :=
  .bind hR (dropMaster_changes hR) fun _ => .bind hR (dropReplica_changes hR) fun _ =>
    .bind hR (.log hR _ _) fun _ => .bind hR (mainLinkAt_changes hR attempt) fun _ => .pure hR _

/-! ## Statements -/

theorem logQuery_changes (message : String) : Changes R (c.logQuery message) :=
  .ite (.log hR _ _) (.pure hR _)

theorem sendPrepared_changes (read : Bool) (call : Link → String → List Value → σ → Outcome α × σ)
    {p : Prepared}
    (hp : ∀ w link ending,
      R w { w with journal := .sent link p.sql p.values ending :: w.journal }) :
    Changes R (c.sendPrepared read call p) := by
  refine .bind hR (linkFor_changes hR read) fun link w => ?_
  exact hR.trans (hR.free w (call link p.sql p.values w.servers).2 w.clock w.nextLink w.dead
    w.schemas w.session) (hp _ link _)

theorem retrying_changes {rawSql : String} {x : Run σ α} (hx : Changes R x) :
    ∀ patience attempt, Changes R (c.retrying rawSql x patience attempt)
  | 0, _ => .cancel hR
  | patience + 1, attempt => by
    refine .bind hR hx.attempt fun r => ?_
    split
    · exact .pure hR _
    · refine .session fun s => ?_
      dsimp only
      split
      · exact .pure hR _
      · exact .bind hR (.sleep hR _) fun _ => .bind hR (.log hR _ _) fun _ =>
          retrying_changes hx patience _
      · refine .bind hR (.sleep hR _) fun _ =>
          .bind hR (reconnect_changes hR attempt).attempt fun r => ?_
        split
        · exact retrying_changes hx patience _
        · exact .pure hR _

theorem runCommand_changes (cmd : Command) (rawSql : String)
    (call : Link → String → List Value → σ → Outcome α × σ)
    (hs : ∀ w link sql values ending,
      R w { w with journal := .sent link sql values ending :: w.journal }) :
    Changes R (c.runCommand cmd rawSql call) := by
  unfold runCommand
  split
  · exact .pure hR _
  · exact .bind hR (retrying_changes hR (sendPrepared_changes hR _ _ fun w link ending =>
      hs w link _ _ ending) _ _) fun _ => .pure hR _

theorem settle_changes (cmd : Command) (executed : Executed) :
    Changes R (c.settle cmd executed) := by
  refine .bind hR (.modifySession hR _) fun _ => ?_
  split
  · refine .bind hR (fun w => ?_) fun _ => release_changes hR false
    exact hR.free w w.servers w.clock w.nextLink w.dead _ w.session
  · exact release_changes hR false

end Client

/-! ## Steps that leave caches and flights alone -/

namespace Run

variable {σ : Type}

/-- From one state to the other events are added to the journal; the caches and the flights are the
same. -/
structure Onward (w w' : RunState σ) : Prop where
  caches : w'.caches = w.caches
  group : w'.group = w.group
  journal : w.journal <:+ w'.journal

namespace Onward

theorem wiring : Wiring (Onward : RunState σ → RunState σ → Prop) where
  trans h h' := ⟨h'.caches.trans h.caches, h'.group.trans h.group, h.journal.trans h'.journal⟩
  free _ _ _ _ _ _ _ := ⟨rfl, rfl, List.suffix_rfl⟩
  note _ e _ := ⟨rfl, rfl, List.suffix_cons e _⟩

end Onward

end Run

/-! ## Reads that send nothing -/

namespace Client

open Run

variable {σ : Type} {c : Client σ}

theorem logQuery_quiet (message : String) : IsQuiet (c.logQuery message) :=
  .ite (.log _ _) .pure

theorem cachedRows_quiet (cmd : Command) (key : String) : IsQuiet (c.cachedRows cmd key) := by
  unfold cachedRows
  split
  · exact .pure
  · refine IsQuiet.bind ?_ fun _ => .pure
    refine IsQuiet.now.bind fun time => IsQuiet.state.bind fun w => ?_
    split
    · exact .pure
    · exact .bind (.modify fun _ => .of_eq rfl rfl rfl) fun _ => .pure

theorem storeRows_quiet (cmd : Command) (key : String) (rows : List Row) :
    IsQuiet (c.storeRows cmd key rows) := by
  unfold storeRows
  split
  · refine .bind (IsQuiet.now.bind fun _ => .modify fun _ => .of_eq rfl rfl rfl) fun _ => ?_
    exact logQuery_quiet _
  · exact .pure

/-- Logging a statement ends in a result, with at most a message. -/
theorem logQuery_done (message : String) (w : RunState σ) :
    ∃ w', c.logQuery message w = (.done (), w') ∧ Quiet w w' ∧ Onward w w' := by
  refine ⟨_, Prod.ext ?_ rfl, logQuery_quiet message w, logQuery_changes Onward.wiring message w⟩
  unfold logQuery
  split <;> rfl

end Client

end QueryKit
