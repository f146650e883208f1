import QueryKit.Proofs.Session.Sends

/-!
# What a command sends

- `Client.execute_sends`, `Client.fetchRows_sends`: a command sends its prepared form, and no other
  statement.
- `Command.Fresh`: the prepared form that a command keeps is what preparing it anew would give.
- `Command.Follows`: what running a command makes of it (`Client.execute_follows`,
  `Client.fetchRows_follows`). It keeps its statement and its values.
-/

namespace QueryKit

namespace Run

variable {σ α β : Type} {P : α → Prop} {Q : β → Prop}

/-- `P` holds of the result of a step that ends in one. -/
def Gives (P : α → Prop) (x : Run σ α) : Prop :=
  ∀ w a w', x w = (.done a, w') → P a

theorem Gives.of_done {x : Run σ α} {w : RunState σ} {a : α} (hx : Gives P x)
    (h : (x w).1 = .done a) : P a :=
  hx w a (x w).2 (by rw [← h])

namespace Gives

theorem pure {a : α} (h : P a) : Gives P (Run.pure a : Run σ α) := by
  intro w b w' hb
  cases hb
  exact h

theorem of_true {x : Run σ α} : Gives (fun _ => True) x :=
  fun _ _ _ _ => trivial

theorem bind {x : Run σ α} {f : α → Run σ β} (hx : Gives P x) (hf : ∀ a, P a → Gives Q (f a)) :
    Gives Q (x >>= f) := by
  intro w b w' h
  change Run.bind x f w = _ at h
  unfold Run.bind at h
  split at h
  · next a w₁ hr => exact hf a (hx w a w₁ hr) w₁ b w' h
  · cases h
  · cases h

/-- A step of whose result nothing has to be known. -/
theorem after {x : Run σ α} {f : α → Run σ β} (hf : ∀ a, Gives Q (f a)) : Gives Q (x >>= f) :=
  of_true.bind fun a _ => hf a

theorem ite {p : Prop} [Decidable p] {x y : Run σ α} (hx : Gives P x) (hy : Gives P y) :
    Gives P (if p then x else y) := by
  split
  · exact hx
  · exact hy

theorem onCancel {x : Run σ α} {cleanup : RunState σ → RunState σ} (hx : Gives P x) :
    Gives P (x.onCancel cleanup) := by
  intro w a w' h
  unfold Run.onCancel at h
  split at h
  · cases h
  · exact hx w a w' h

end Gives

end Run

namespace Client

open Run

variable {σ α β : Type} {c : Client σ} {P : String → List Value → Prop}

theorem logQuery_sends (message : String) : Sends P (c.logQuery message) :=
  logQuery_changes sends_wiring message

theorem sendPrepared_sends (read : Bool) (call : Link → String → List Value → σ → Outcome α × σ)
    {p : Prepared} (hp : P p.sql p.values) : Sends P (c.sendPrepared read call p) :=
  (linkFor_sends read).bind fun _ => .send hp

/-- What comes after the first attempt sends nothing but further attempts. -/
theorem retrying_succ {rawSql : String} {x : Run σ α} {patience : Nat}
    (h : ∀ attempt, Sends P (c.retrying rawSql x patience attempt)) (attempt : Nat) :
    ∃ k, c.retrying rawSql x (patience + 1) attempt = x.attempt >>= k ∧ ∀ r, Sends P (k r) := by
  refine ⟨_, rfl, fun r => ?_⟩
  split
  · exact .pure _
  · refine Sends.session.bind fun s => ?_
    dsimp only
    split
    · exact .pure _
    · exact (Sends.sleep _).bind fun _ => (Sends.log _ _).bind fun _ => h _
    · refine (Sends.sleep _).bind fun _ => (reconnect_sends attempt).attempt.bind fun r => ?_
      split
      · exact h _
      · exact .pure _

theorem retrying_sends {rawSql : String} {x : Run σ α} (hx : Sends P x) (patience attempt : Nat) :
    Sends P (c.retrying rawSql x patience attempt) :=
  retrying_changes sends_wiring hx patience attempt

/-- What a command sends is its prepared form. -/
theorem runCommand_sends (cmd : Command) (rawSql : String)
    (call : Link → String → List Value → σ → Outcome α × σ) :
    Sends (fun sql values => cmd.preparation c.connection = .ok ⟨sql, values⟩)
      (c.runCommand cmd rawSql call) := by
  unfold runCommand
  split
  · exact .pure _
  · next p hp =>
    exact (retrying_sends (sendPrepared_sends _ call hp) _ _).bind fun _ => .pure _

theorem settle_sends (cmd : Command) (executed : Executed) : Sends P (c.settle cmd executed) :=
  settle_changes sends_wiring cmd executed

theorem execute_sends (cmd : Command) :
    Sends (fun sql values => cmd.preparation c.connection = .ok ⟨sql, values⟩) (c.execute cmd) := by
  refine (logQuery_sends _).bind fun _ => .ite (.pure _) ?_
  refine (runCommand_sends cmd _ _).bind fun r => ?_
  dsimp only
  split
  · exact (release_sends false).bind fun _ => .pure _
  · exact (settle_sends _ _).bind fun _ => .pure _

theorem cachedRows_sends (cmd : Command) (key : String) : Sends P (c.cachedRows cmd key) := by
  unfold cachedRows
  split
  · exact .pure _
  · refine Sends.bind ?_ fun _ => .pure _
    refine Sends.now.bind fun time => Sends.state.bind fun w => ?_
    split
    · exact .pure _
    · exact .bind (.modify fun _ => rfl) fun _ => .pure _

theorem storeRows_sends (cmd : Command) (key : String) (rows : List Row) :
    Sends P (c.storeRows cmd key rows) := by
  unfold storeRows
  split
  · exact .bind (Sends.now.bind fun _ => .modify fun _ => rfl) fun _ => logQuery_sends _
  · exact .pure _

theorem fetchCached_sends (cmd : Command) (method rawSql : String) :
    Sends (fun sql values => cmd.preparation c.connection = .ok ⟨sql, values⟩)
      (c.fetchCached cmd method rawSql) := by
  refine (cachedRows_sends cmd _).bind fun cached => ?_
  split
  · exact (logQuery_sends _).bind fun _ => .pure _
  · refine (logQuery_sends _).bind fun _ => (runCommand_sends cmd rawSql _).bind fun r => ?_
    refine (release_sends false).bind fun _ => ?_
    split
    · exact .pure _
    · exact (storeRows_sends cmd _ _).bind fun _ => .pure _

theorem fetchRows_sends (cmd : Command) (method : String) :
    Sends (fun sql values => cmd.preparation c.connection = .ok ⟨sql, values⟩)
      (c.fetchRows cmd method) := by
  refine .ite ?_ (fetchCached_sends cmd method _)
  refine .bind (.of_journal_eq fun _ => rfl) fun ticket => ?_
  split
  · refine .bind (.onCancel (fetchCached_sends cmd method _) fun _ => rfl) fun _ => ?_
    exact .bind (.modify fun _ => rfl) fun _ => .pure _
  · refine (Sends.observe _).bind fun flight => ?_
    split
    · exact .pure _
    · exact fetchCached_sends cmd method _
    · exact .cancel

theorem fetchAs_sends (cmd : Command) (method : String) (f : List Row → Result β) :
    Sends (fun sql values => cmd.preparation c.connection = .ok ⟨sql, values⟩)
      (c.fetchAs method f cmd) :=
  (fetchRows_sends cmd method).bind fun _ => .pure _

end Client

/-! ## Prepared forms -/

namespace Command

variable {conn : Connection} {cmd cmd' : Command}

/-- The prepared form, if one is kept, is what preparing the command anew would give. -/
def Fresh (conn : Connection) (cmd : Command) : Prop :=
  ∀ p ∈ cmd.prepared, cmd.bound conn = .ok p

/-- The command has the same statement and values, and keeps a prepared form only if that is the one
to be sent. -/
structure Follows (conn : Connection) (cmd cmd' : Command) : Prop where
  sql : cmd'.sql = cmd.sql
  params : cmd'.params = cmd.params
  prepared : ∀ p ∈ cmd'.prepared, cmd.preparation conn = .ok p

theorem preparation_of_prepared {p : Prepared} (h : cmd.prepared = some p) :
    cmd.preparation conn = .ok p := by
  rw [preparation, h]

theorem Fresh.of_none (h : cmd.prepared = none) : cmd.Fresh conn := by
  intro p hp
  rw [h] at hp
  cases hp

/-- An up-to-date command sends what preparing it anew gives. -/
theorem Fresh.preparation_eq (h : cmd.Fresh conn) : cmd.preparation conn = cmd.bound conn := by
  cases hp : cmd.prepared with
  | none => rw [preparation, hp]
  | some p => rw [preparation_of_prepared hp, h p hp]

theorem Follows.refl : Follows conn cmd cmd :=
  ⟨rfl, rfl, fun _ hp => preparation_of_prepared hp⟩

theorem Follows.bound_eq (h : Follows conn cmd cmd') : cmd'.bound conn = cmd.bound conn := by
  rw [bound, bound, h.sql, h.params]

theorem Follows.fresh (h : Follows conn cmd cmd') (hf : cmd.Fresh conn) : cmd'.Fresh conn := by
  intro p hp
  rw [h.bound_eq, ← hf.preparation_eq]
  exact h.prepared p hp

theorem prepare_follows (h : cmd.prepare conn = .ok cmd') : Follows conn cmd cmd' := by
  unfold prepare at h
  cases hp : cmd.preparation conn with
  | error e =>
    rw [hp] at h
    cases h
  | ok p =>
    rw [hp] at h
    cases h
    exact ⟨rfl, rfl, fun q hq => Option.some.inj hq ▸ hp⟩

theorem setRawSql_sql (cmd : Command) (sql : String) : (cmd.setRawSql sql).sql = sql := by
  unfold setRawSql
  split
  · next h => exact h.symm
  · rfl

/-- A text of its own makes a command forget its prepared form. -/
theorem setRawSql_fresh (h : cmd.Fresh conn) (sql : String) : (cmd.setRawSql sql).Fresh conn := by
  unfold setRawSql
  split
  · exact h
  · exact .of_none rfl

theorem create_fresh (sql : String) : (create conn sql).Fresh conn :=
  setRawSql_fresh (.of_none rfl) _

end Command

namespace Client

variable {σ α β : Type} {c : Client σ}

theorem runCommand_follows (cmd : Command) (rawSql : String)
    (call : Link → String → List Value → σ → Outcome α × σ) :
    Run.Gives (fun r => Command.Follows c.connection cmd r.2) (c.runCommand cmd rawSql call) := by
  unfold runCommand
  split
  · exact .pure .refl
  · next p hp =>
    refine .after fun r => .pure ⟨rfl, rfl, fun q hq => ?_⟩
    dsimp only at hq
    split at hq
    · cases hq
      exact hp
    · cases hq

theorem execute_follows (cmd : Command) :
    Run.Gives (fun r => Command.Follows c.connection cmd r.2) (c.execute cmd) := by
  refine .after fun _ => .ite (.pure .refl) ?_
  refine (runCommand_follows cmd _ _).bind fun r hr => ?_
  dsimp only
  split
  · exact .after fun _ => .pure hr
  · exact .after fun _ => .pure hr

theorem fetchCached_follows (cmd : Command) (method rawSql : String) :
    Run.Gives (fun r => Command.Follows c.connection cmd r.2)
      (c.fetchCached cmd method rawSql) := by
  refine .after fun cached => ?_
  split
  · exact .after fun _ => .pure .refl
  · refine .after fun _ => (runCommand_follows cmd rawSql _).bind fun r hr => ?_
    refine .after fun _ => ?_
    split
    · exact .pure hr
    · exact .after fun _ => .pure hr

theorem fetchRows_follows (cmd : Command) (method : String) :
    Run.Gives (fun r => Command.Follows c.connection cmd r.2) (c.fetchRows cmd method) := by
  refine .ite ?_ (fetchCached_follows cmd method _)
  refine .after fun ticket => ?_
  split
  · refine (Run.Gives.onCancel (fetchCached_follows cmd method _)).bind fun r hr => ?_
    exact .after fun _ => .pure hr
  · refine .after fun flight => ?_
    split
    · exact .pure .refl
    · exact fetchCached_follows cmd method _
    · intro w a w' h
      cases h

theorem fetchAs_follows (cmd : Command) (method : String) (f : List Row → Result β) :
    Run.Gives (fun r => Command.Follows c.connection cmd r.2) (c.fetchAs method f cmd) :=
  (fetchRows_follows cmd method).bind fun _ hr => .pure hr

end Client

end QueryKit
