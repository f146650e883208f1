import QueryKit.Proofs.Connections.Moves

/-!
# The moves of operations

Every operation of a session is made of moves that it is permitted: `Client.execute_walks` and
`Client.fetchAs_walks` for a command (`Command.permit`), `Client.begin_walks`,
`Client.commit_walks`, `Client.rollBack_walks` and `Client.setIsolationLevel_walks` for transactions
(`Permit.turning`).
-/

namespace QueryKit

/-- What a command may do. -/
def Command.permit (conn : Connection) (cmd : Command) : Permit where
  reads := isReadStatement cmd.sql
  parts := false
  turns := false
  texts sql := ∃ p, cmd.preparation conn = .ok p ∧ p.sql = sql

namespace Client

open Run

variable {σ α β : Type} {c : Client σ} {k : Permit}

/-! ## Commands -/

theorem sendPrepared_walks {read : Bool} (call : Link → String → List Value → σ → Outcome α × σ)
    {p : Prepared} (hread : read = true → k.reads = true) (htext : k.texts p.sql) :
    c.Walks k (c.sendPrepared read call p) := by
  refine walks_iff.mpr fun w => (linkFor_reach hread).bind fun link => .of_after ?_
  rintro w' ⟨hreach, hmaster | ⟨hreads, hlevel, henabled, hreplica⟩⟩
  · exact hreach.tail (.sendMaster _ _ _ hmaster htext)
  · exact hreach.tail (.sendReplica _ _ _ hreplica htext hreads hlevel henabled)

theorem retrying_walks {rawSql : String} {x : Run σ α} (hx : c.Walks k x) : ∀ patience attempt,
    c.Walks k (c.retrying rawSql x patience attempt)
  | 0, _ => .cancel
  | patience + 1, attempt => by
    refine hx.attempt.bind fun r => ?_
    cases r with
    | ok a => exact .pure _
    | error e =>
      refine walks_iff.mpr fun w => Meets.session.bind fun s => ?_
      rcases haction : c.retryAction s.isActive (e.withStatement rawSql) attempt with
        ⟨action, pause⟩
      cases action with
      | no => exact .pure fun _ h => h.1
      | retry =>
        refine Meets.of_imp (fun _ h => h.1) (Walks.keeps ?_ w)
        exact (Walks.quiet (.sleep _)).bind fun _ => (Walks.log _ _).bind fun _ =>
          retrying_walks hx patience (attempt + 1)
      | reconnect =>
        -- No handler gets a reconnect inside a transaction.
        have hactive := retryAction_reconnect haction
        have hlevel : s.level = 0 := by simpa [Session.isActive] using hactive
        refine Meets.bind (R := fun _ w' => c.Reach k w w' ∧ w'.session.level = 0) ?_ fun _ => ?_
        · rintro w₁ ⟨hreach, rfl⟩
          exact ⟨hreach.tail (.quiet (.clock _)), hlevel⟩
        · refine Meets.bind (((reconnect_reach attempt).of_imp fun w' h =>
            ⟨h.1, fun hne => absurd h.2 hne⟩).attempt) fun r => ?_
          cases r with
          | ok _ => exact (retrying_walks hx patience (attempt + 1)).keeps w
          | error failure => exact .pure fun _ h => h

theorem runCommand_walks (cmd : Command) (rawSql : String)
    (call : Link → String → List Value → σ → Outcome α × σ) :
    c.Walks (cmd.permit c.connection) (c.runCommand cmd rawSql call) := by
  unfold runCommand
  split
  · exact .pure _
  · next p hp =>
    refine Walks.bind (retrying_walks (sendPrepared_walks call (fun h => h) ?_) _ _) fun _ =>
      .pure _
    exact ⟨p, hp, rfl⟩

theorem settle_walks (cmd : Command) (executed : Executed) : c.Walks k (c.settle cmd executed) := by
  refine Walks.bind (.modifySession (fun _ => rfl) (fun _ => rfl) (fun _ => rfl)
    fun _ h => absurd rfl h) fun _ => ?_
  split
  · exact Walks.bind (.quiet (.modify fun _ => .of_eq rfl rfl rfl)) fun _ => release_walks false
  · exact release_walks false

theorem execute_walks (cmd : Command) : c.Walks (cmd.permit c.connection) (c.execute cmd) := by
  refine (Walks.quiet (logQuery_quiet _)).bind fun _ => .ite (.pure _) ?_
  refine (runCommand_walks cmd _ _).bind fun r => ?_
  dsimp only
  split
  · exact (release_walks false).bind fun _ => .pure _
  · exact (settle_walks _ _).bind fun _ => .pure _

theorem fetchCached_walks (cmd : Command) (method rawSql : String) :
    c.Walks (cmd.permit c.connection) (c.fetchCached cmd method rawSql) := by
  refine (Walks.quiet (cachedRows_quiet cmd _)).bind fun cached => ?_
  split
  · exact (Walks.quiet (logQuery_quiet _)).bind fun _ => .pure _
  · refine (Walks.quiet (logQuery_quiet _)).bind fun _ => ?_
    refine (runCommand_walks cmd rawSql _).bind fun r => (release_walks false).bind fun _ => ?_
    split
    · exact .pure _
    · exact (Walks.quiet (storeRows_quiet cmd _ _)).bind fun _ => .pure _

theorem fetchAs_walks (method : String) (f : List Row → Result β) (cmd : Command) :
    c.Walks (cmd.permit c.connection) (c.fetchAs method f cmd) := by
  refine Walks.bind (.ite ?_ (fetchCached_walks cmd method _)) fun _ => .pure _
  have harrive : ∀ key : String, IsQuiet (arrive key : Run σ Ticket) :=
    fun key w => .of_eq rfl rfl rfl
  refine (Walks.quiet (harrive _)).bind fun ticket => ?_
  split
  · refine Walks.bind (walks_iff.mpr fun w => ?_) fun _ =>
      Walks.bind (.quiet (.modify fun _ => .of_eq rfl rfl rfl)) fun _ => .pure _
    exact ((fetchCached_walks cmd method _).keeps w).onCancel fun w' h =>
      h.tail (.quiet (.of_eq rfl rfl rfl))
  · refine (Walks.quiet (.observe _)).bind fun flight => ?_
    split
    · exact .pure _
    · exact fetchCached_walks cmd method _
    · exact .cancel

theorem tableSchema_walks (name : String) : c.Walks k (c.tableSchema name) := by
  refine Changes.state (R := c.Reach k) fun w => ?_
  split
  · exact Walks.pure _
  · refine (mainLinkAt_walks 0).bind fun link => (Walks.quiet (.ask _)).bind fun loaded => ?_
    refine (release_walks false).bind fun _ => ?_
    split
    · exact Walks.bind (.quiet (.modify fun _ => .of_eq rfl rfl rfl)) fun _ => .pure _
    · exact .pure _

/-! ## Transactions -/

theorem control_walks (sql : String) : c.Walks .turning (c.control sql) := by
  refine walks_iff.mpr fun w => (mainLinkAt_reach 0).attempt.bind fun r => ?_
  cases r with
  | error e => exact ((resetTransaction_walks rfl).bind fun _ => .fail e).keeps w
  | ok link =>
    have hsend : Meets (c.Reach .turning w) (c.Reach .turning w)
        (fun w' => c.Reach .turning w w' ∧ w'.session.master = some link)
        (Run.send link sql [] (c.backend.execute link sql [])) fun _ => c.Reach .turning w :=
      .of_after fun w' h => h.1.tail (.sendMaster _ _ _ h.2 trivial)
    refine hsend.attempt.bind fun r => ?_
    cases r with
    | ok executed => exact Keeps.pure
    | error e => exact ((discardMaster_walks rfl rfl).bind fun _ => .fail _).keeps w

theorem controlAll_walks : ∀ statements : List String,
    c.Walks .turning (c.controlAll statements)
  | [] => .pure ()
  | sql :: statements => (control_walks sql).bind fun _ => controlAll_walks statements

/-- A change of the level and of the isolation level. -/
theorem setLevel_walks {f : Session → Session} (hmaster : ∀ s, (f s).master = s.master)
    (hreplica : ∀ s, (f s).replica = s.replica)
    (henabled : ∀ s, (f s).replicasEnabled = s.replicasEnabled) :
    c.Walks .turning (Run.modifySession f : Run σ Unit) :=
  .modifySession hmaster hreplica henabled fun _ _ => rfl

theorem begin_walks (isolation : Option IsolationLevel) : c.Walks .turning (c.begin isolation) := by
  refine .session fun s => .ite ?_ ?_
  · refine (Walks.ofResult _).bind fun statements => (Walks.log _ _).bind fun _ => ?_
    refine (controlAll_walks statements).bind fun _ => ?_
    exact setLevel_walks (fun _ => rfl) (fun _ => rfl) fun _ => rfl
  · refine .ite ?_ ((Walks.log _ _).bind fun _ => .fail _)
    refine (Walks.log _ _).bind fun _ => (control_walks _).bind fun _ => ?_
    exact setLevel_walks (fun _ => rfl) (fun _ => rfl) fun _ => rfl

theorem endOutermost_walks (message sql : String) :
    c.Walks .turning (c.endOutermost message sql) :=
  (Walks.log _ _).bind fun _ =>
    Walks.bind (setLevel_walks (fun _ => rfl) (fun _ => rfl) fun _ => rfl) fun _ =>
      (control_walks sql).bind fun _ => release_walks true

theorem leaveLevel_walks : c.Walks .turning (leaveLevel : Run σ Nat) :=
  Walks.bind (setLevel_walks (fun _ => rfl) (fun _ => rfl) fun _ => rfl) fun _ =>
    .session fun _ => .pure _

theorem commit_walks : c.Walks .turning c.commit := by
  refine .session fun s => .ite ?_ ((release_walks true).bind fun _ => .fail _)
  refine leaveLevel_walks.bind fun level => .ite (endOutermost_walks _ _) (.ite ?_ (.log _ _))
  exact (Walks.log _ _).bind fun _ => control_walks _

theorem rollBack_walks : c.Walks .turning c.rollBack := by
  refine .session fun s => .ite ?_ (release_walks true)
  refine leaveLevel_walks.bind fun level => .ite (endOutermost_walks _ _) (.ite ?_ (.log _ _))
  exact (Walks.log _ _).bind fun _ => control_walks _

theorem setIsolationLevel_walks (isolation : IsolationLevel) :
    c.Walks .turning (c.setIsolationLevel isolation) := by
  refine .session fun s => .ite ?_ ((release_walks true).bind fun _ => .fail _)
  exact (Walks.log _ _).bind fun _ => (Walks.ofResult _).bind fun sql => control_walks sql

end Client

end QueryKit
