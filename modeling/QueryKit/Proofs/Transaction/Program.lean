import QueryKit.Command.Fetch
import QueryKit.Proofs.Transaction.Failures
import QueryKit.Proofs.Transaction.Levels

/-!
# Programs over a session

- `Client.Program`: what callers can do with a session: its operations, in any order and nested in
  closures, with any decisions between them. Their commands are not statements of transactions
  (`Command.IsPlain`).
- `Session.Tracks`: what a session says of its transaction is so on its master connection.
- `Client.Program.tracks`: it is, after every program that is not cancelled, whatever the servers
  and the retry handler do. No connection with an open transaction is given back, and a statement of
  a transaction that fails leaves no transaction.
-/

namespace QueryKit

open Run

/-- What is sent for the command does not begin or end a transaction or name a savepoint. -/
def Command.IsPlain (conn : Connection) (cmd : Command) : Prop :=
  ∀ p, cmd.preparation conn = .ok p → Control.ofSql p.sql = none

namespace Client

variable {σ α β : Type} {c : Client σ} {replaces : Bool} {cmd : Command}

/-! ## Commands -/

/-- A statement that does not concern transactions may be sent on any connection. -/
theorem sendPlain_meets {link : Link} {sql : String} {values : List Value}
    {call : σ → Outcome α × σ} (hsql : Control.ofSql sql = none) :
    Meets (c.Sound replaces) (Safe replaces)
      (fun w => c.Sound replaces w ∧ link.number < w.nextLink) (Run.send link sql values call)
      fun _ => c.Sound replaces := by
  rintro w ⟨⟨⟨-, hlinks⟩, hisolation⟩, hlt⟩
  unfold Run.send
  rcases call w.servers with ⟨a | e | _, servers⟩
  · exact ⟨⟨rfl, hlinks.of_none hsql hlt values _⟩, hisolation⟩
  · exact ⟨⟨rfl, hlinks.of_none hsql hlt values _⟩, hisolation⟩
  · have hlinks := hlinks.of_none hsql hlt values .pending
    exact ⟨hlinks.released, hlinks.discarded⟩

theorem sendPrepared_keeps {p : Prepared} (read : Bool)
    (call : Link → String → List Value → σ → Outcome α × σ) (hsql : Control.ofSql p.sql = none) :
    Keeps (c.Sound replaces) (Safe replaces) (c.sendPrepared read call p) :=
  (linkFor_meets read).bind fun _ => sendPlain_meets hsql

/-- Connections are not replaced inside a transaction. -/
theorem retryAction_reconnect {active : Bool} {e : Error} {attempt pause : Nat}
    (h : c.retryAction active e attempt = (.reconnect, pause)) : active = false := by
  rw [← Bool.not_eq_true]
  rintro rfl
  unfold retryAction at h
  split at h
  · cases h
  · split at h
    · cases h
    · split at h
      · cases h
      · split at h
        · cases h
        · next hne => exact (hne (congrArg Prod.fst h)).elim

theorem retrying_keeps {rawSql : String} {x : Run σ α}
    (hx : Keeps (c.Sound replaces) (Safe replaces) x) : ∀ patience attempt,
    Keeps (c.Sound replaces) (Safe replaces) (c.retrying rawSql x patience attempt)
  | 0, _ => .cancel fun _ hw => hw.safe
  | patience + 1, attempt => by
    refine hx.attempt.bind fun r => ?_
    cases r with
    | ok a => exact Keeps.pure
    | error e =>
      refine Meets.session.bind fun s => ?_
      rcases haction : c.retryAction s.isActive (e.withStatement rawSql) attempt with
        ⟨action, pause⟩
      cases action with
      | no => exact .pure fun _ hw => hw.1
      | retry =>
        refine Meets.of_imp (fun _ hw => hw.1) ?_
        refine (Sound.quiet (.sleep _)).bind fun _ => (Sound.quiet (.log _ _)).bind fun _ => ?_
        exact retrying_keeps hx patience (attempt + 1)
      | reconnect =>
        have hactive := retryAction_reconnect haction
        have hstable : Stable fun w : RunState σ =>
            c.Sound replaces w ∧ w.session.isActive = false := fun w w' hq hw =>
          ⟨sound_stable w w' hq hw.1, by rw [hq.session]; exact hw.2⟩
        refine Meets.of_imp (P := fun w => c.Sound replaces w ∧ w.session.isActive = false) ?_ ?_
        · rintro w ⟨hw, rfl⟩
          exact ⟨hw, hactive⟩
        refine (Meets.quiet (.sleep _) hstable (fun _ hw => hw.1) fun _ hw => hw.1.safe).bind
          fun _ => ?_
        refine (reconnect_keeps attempt).attempt.bind fun r => ?_
        cases r with
        | ok _ => exact retrying_keeps hx patience (attempt + 1)
        | error failure => exact Keeps.pure

theorem runCommand_keeps (hcmd : cmd.IsPlain c.connection) (rawSql : String)
    (call : Link → String → List Value → σ → Outcome α × σ) :
    Keeps (c.Sound replaces) (Safe replaces) (c.runCommand cmd rawSql call) := by
  unfold runCommand
  split
  · exact Keeps.pure
  · next p hp =>
    exact (retrying_keeps (sendPrepared_keeps _ call (hcmd p hp)) _ _).bind fun _ => Keeps.pure

/-- A change to a session that leaves its connections and its transaction alone. -/
theorem modifySession_keeps {f : Session → Session} (hmaster : ∀ s, (f s).master = s.master)
    (hreplica : ∀ s, (f s).replica = s.replica) (hlevel : ∀ s, (f s).level = s.level)
    (hisolation : ∀ s, (f s).isolation = s.isolation) :
    Keeps (c.Sound replaces) (Safe replaces) (Run.modifySession f) := by
  refine Sound.meets fun s hs => ?_
  refine (modifySession_meets (hmaster s) (hreplica s)).imp fun _ w hw => hw.sound (hlevel s) ?_
  rwa [hlevel, hisolation]

theorem settle_keeps (cmd : Command) (executed : Executed) :
    Keeps (c.Sound replaces) (Safe replaces) (c.settle cmd executed) := by
  refine Keeps.bind (modifySession_keeps (fun _ => rfl) (fun _ => rfl) (fun _ => rfl)
    fun _ => rfl) fun _ => ?_
  split
  · exact Keeps.bind (Sound.quiet (.modify fun _ => .of_eq rfl rfl rfl)) fun _ =>
      release_keeps false
  · exact release_keeps false

theorem execute_keeps (hcmd : cmd.IsPlain c.connection) :
    Keeps (c.Sound replaces) (Safe replaces) (c.execute cmd) := by
  refine (Sound.quiet (logQuery_quiet _)).bind fun _ => .ite (fun _ => Keeps.pure) fun _ => ?_
  refine (runCommand_keeps hcmd _ _).bind fun r => ?_
  dsimp only
  split
  · exact (release_keeps false).bind fun _ => Keeps.pure
  · exact (settle_keeps _ _).bind fun _ => Keeps.pure

theorem fetchCached_keeps (hcmd : cmd.IsPlain c.connection) (method rawSql : String) :
    Keeps (c.Sound replaces) (Safe replaces) (c.fetchCached cmd method rawSql) := by
  refine (Sound.quiet (cachedRows_quiet cmd _)).bind fun cached => ?_
  split
  · exact (Sound.quiet (logQuery_quiet _)).bind fun _ => Keeps.pure
  · refine (Sound.quiet (logQuery_quiet _)).bind fun _ => ?_
    refine (runCommand_keeps hcmd rawSql _).bind fun r => (release_keeps false).bind fun _ => ?_
    split
    · exact Keeps.pure
    · exact (Sound.quiet (storeRows_quiet cmd _ _)).bind fun _ => Keeps.pure

theorem fetchAs_keeps (hcmd : cmd.IsPlain c.connection) (method : String)
    (f : List Row → Result β) :
    Keeps (c.Sound replaces) (Safe replaces) (c.fetchAs method f cmd) := by
  have hfetch : Keeps (c.Sound replaces) (Safe replaces) (c.fetchRows cmd method) := by
    refine .ite (fun _ => ?_) fun _ => fetchCached_keeps hcmd method _
    have harrive : ∀ key : String, IsQuiet (arrive key : Run σ Ticket) :=
      fun key w => .of_eq rfl rfl rfl
    refine (Sound.quiet (harrive _)).bind fun ticket => ?_
    split
    · refine Keeps.bind (.onCancel (fetchCached_keeps hcmd method _) fun w hw => hw) fun _ => ?_
      exact Keeps.bind (Sound.quiet (.modify fun _ => .of_eq rfl rfl rfl)) fun _ => Keeps.pure
    · refine (Sound.quiet (.observe _)).bind fun flight => ?_
      split
      · exact Keeps.pure
      · exact fetchCached_keeps hcmd method _
      · exact .cancel fun _ hw => hw.safe
  exact hfetch.bind fun _ => Keeps.pure

/-! ## Other operations -/

theorem tableSchema_keeps (name : String) :
    Keeps (c.Sound replaces) (Safe replaces) (c.tableSchema name) := by
  refine Keeps.state fun w => ?_
  split
  · exact Keeps.pure
  · refine Meets.bind (mainLink_meets.imp fun _ _ hw => hw.1) fun link => ?_
    refine (Sound.quiet (.ask _)).bind fun loaded => (release_keeps false).bind fun _ => ?_
    split
    · exact Keeps.bind (Sound.quiet (.modify fun _ => .of_eq rfl rfl rfl)) fun _ => Keeps.pure
    · exact Keeps.pure

theorem replicas_keeps (enabled : Bool) : Keeps (c.Sound replaces) (Safe replaces)
    (Run.modifySession fun s => { s with replicasEnabled := enabled }) :=
  modifySession_keeps (fun _ => rfl) (fun _ => rfl) (fun _ => rfl) fun _ => rfl

theorem useMaster_keeps {x : Run σ α} (hx : Keeps (c.Sound replaces) (Safe replaces) x) :
    Keeps (c.Sound replaces) (Safe replaces) (useMaster x) :=
  .session fun s => (replicas_keeps false).bind fun _ => hx.attempt.bind fun r =>
    (replicas_keeps s.replicasEnabled).bind fun _ => .ofResult r

end Client

/-! ## Programs -/

/-- What a session says of its transaction, as the statements on its master connection show it. -/
structure Session.Tracks (replaces : Bool) (s : Session) (j : Journal) : Prop where
  /-- Outside transactions none is open on a connection that is held. -/
  outside : s.level = 0 →
    s.isolation = none ∧ ∀ link ∈ s.master, j.standing replaces link = .idle
  /-- At a level a transaction is open on the connection that is held, with the savepoints of the
  levels below, in their order. -/
  inside : ∀ n, s.level = n + 1 → ∃ link saved nesting, s.master = some link ∧
    j.standing replaces link = .opened saved nesting ∧ nesting.Sublist saved ∧
    (nesting.map (·.name)).reverse = (List.range' 1 n).map Client.savepointName

namespace Client

variable {σ α β : Type} {c : Client σ} {replaces : Bool}

theorem Sound.session_tracks {w : RunState σ} (h : c.Sound replaces w) :
    w.session.Tracks replaces w.journal := by
  obtain ⟨⟨-, hlinks⟩, hisolation⟩ := h
  refine ⟨fun hlevel => ⟨hisolation hlevel, fun link hl => ?_⟩, fun n hlevel => ?_⟩
  · have hat := hlinks.master_at link hl
    rw [hlevel] at hat
    exact hat.eq_idle
  · obtain ⟨link, hlink⟩ := Option.isSome_iff_exists.mp (hlinks.master_isSome (by omega))
    have hat := hlinks.master_at link hlink
    rw [hlevel] at hat
    obtain ⟨saved, nesting, hstanding, hnested⟩ := hat.exists_nested
    exact ⟨link, saved, nesting, hlink, hstanding, hnested.sublist, hnested.names⟩

/-- An operation that opens or ends a level or changes the transaction that is open. -/
inductive Turn (c : Client σ) : Run σ Unit → Prop
  | begin (isolation : Option IsolationLevel) : Turn c (c.begin isolation)
  | commit : Turn c c.commit
  | rollBack : Turn c c.rollBack
  | setIsolationLevel (isolation : IsolationLevel) : Turn c (c.setIsolationLevel isolation)

theorem Turn.keeps {x : Run σ Unit} (h : Turn c x) :
    Keeps (c.Sound replaces) (Safe replaces) x := by
  cases h with
  | begin isolation => exact begin_keeps isolation
  | commit => exact commit_keeps
  | rollBack => exact rollBack_keeps
  | setIsolationLevel isolation => exact setIsolationLevel_keeps isolation

theorem Turn.stops {x : Run σ Unit} (h : Turn c x) : StopsAtFailure x := by
  cases h with
  | begin isolation => exact begin_stops isolation
  | commit => exact commit_stops
  | rollBack => exact rollBack_stops
  | setIsolationLevel isolation => exact setIsolationLevel_stops isolation

/-- What callers do with a session. Closures are programs too; what they do next may depend on
everything that they see. -/
inductive Program (c : Client σ) : {α : Type} → Run σ α → Prop
  | pure {α : Type} (a : α) : Program c (Run.pure a)
  | fail {α : Type} (e : Error) : Program c (Run.fail e : Run σ α)
  | bind {α β : Type} {x : Run σ α} {f : α → Run σ β} :
    Program c x → (∀ a, Program c (f a)) → Program c (x >>= f)
  | attempt {α : Type} {x : Run σ α} : Program c x → Program c x.attempt
  | state : Program c Run.state
  | turn {x : Run σ Unit} : Turn c x → Program c x
  | transaction {α : Type} (isolation : Option IsolationLevel) {x : Run σ α} :
    Program c x → Program c (c.transaction isolation x)
  | execute (cmd : Command) : cmd.IsPlain c.connection → Program c (c.execute cmd)
  | fetch {β : Type} (cmd : Command) (method : String) (f : List Row → Result β) :
    cmd.IsPlain c.connection → Program c (c.fetchAs method f cmd)
  | tableSchema (name : String) : Program c (c.tableSchema name)
  | release (force : Bool) : Program c (c.release force)
  | useMaster {α : Type} {x : Run σ α} : Program c x → Program c (useMaster x)
  /-- Reads go to the master only, or not, as inside and after `useMaster`. -/
  | replicas (enabled : Bool) :
    Program c (Run.modifySession fun s => { s with replicasEnabled := enabled })
  | close : Program c c.close
  | drop : Program c c.drop
  /-- The session ends and another one begins on the same connection. -/
  | renew : Program c c.renew

theorem Program.keeps {x : Run σ α} (h : Program c x) :
    Keeps (c.Sound replaces) (Safe replaces) x := by
  induction h with
  | pure a => exact Keeps.pure
  | fail e => exact Keeps.fail
  | bind _ _ ihx ihf => exact ihx.bind ihf
  | attempt _ ih => exact ih.attempt
  | state => exact Sound.quiet .state
  | turn h => exact h.keeps
  | transaction isolation _ ih => exact transaction_keeps isolation ih
  | execute cmd hcmd => exact execute_keeps hcmd
  | fetch cmd method f hcmd => exact fetchAs_keeps hcmd method f
  | tableSchema name => exact tableSchema_keeps name
  | release force => exact release_keeps force
  | useMaster _ ih => exact useMaster_keeps ih
  | replicas enabled => exact replicas_keeps enabled
  | close => exact close_keeps
  | drop => exact drop_keeps
  | renew => exact renew_keeps

theorem sound_new (c : Client σ) (replaces : Bool) (servers : σ) :
    c.Sound replaces (.ofConnection c.connection servers) :=
  ⟨⟨rfl, .new c.connection replaces⟩, fun _ => rfl⟩

/-- After any program that is not cancelled, the session tells what the statements on its master
connection have led to. Cancelled or not, no connection with an open transaction was given back, and
a connection on which a statement of a transaction failed was closed at once. When an operation on
transactions is called next and a statement of it fails, the operation fails, its connection is
closed, and the session is left without a master connection and without a transaction. -/
theorem Program.tracks (c : Client σ) (replaces : Bool) (servers : σ) {x : Run σ α}
    (hx : Program c x) :
    let w := (x (.ofConnection c.connection servers)).2
    w.journal.ReleasesIdle replaces ∧ w.journal.DiscardsFailed ∧
      ((x (.ofConnection c.connection servers)).1 ≠ .cancelled →
        w.session.Tracks replaces w.journal) ∧
      ∀ y, Turn c y → StopsFrom w y := by
  have hmeets : Keeps (c.Sound replaces) (Safe replaces) x := hx.keeps
  have hkeeps := hmeets _ (sound_new c replaces servers)
  rcases hr : x (.ofConnection c.connection servers) with ⟨a | e | _, w⟩
  · rw [hr] at hkeeps
    have hsound : c.Sound replaces w := hkeeps
    exact ⟨hsound.safe.1, hsound.safe.2, fun _ => hsound.session_tracks, fun y hy => hy.stops w⟩
  · rw [hr] at hkeeps
    have hsound : c.Sound replaces w := hkeeps
    exact ⟨hsound.safe.1, hsound.safe.2, fun _ => hsound.session_tracks, fun y hy => hy.stops w⟩
  · rw [hr] at hkeeps
    have hsafe : Safe replaces w := hkeeps
    exact ⟨hsafe.1, hsafe.2, fun h => absurd rfl h, fun y hy => hy.stops w⟩

/-- A level inside a transaction is rolled back, and another one is begun. -/
def renested : Run Recorder Unit := do
  rehearsal.begin none
  rehearsal.begin none
  rehearsal.rollBack
  rehearsal.begin none

theorem renested_tracks : (renested rehearsalState).2.session.level = 2 ∧
    (renested rehearsalState).2.session.Tracks false (renested rehearsalState).2.journal := by
  have hbegin : Program rehearsal (rehearsal.begin none) := .turn (.begin none)
  have hprogram : Program rehearsal renested :=
    hbegin.bind fun _ => hbegin.bind fun _ => (Program.turn .rollBack).bind fun _ => hbegin
  exact ⟨rfl, (Program.tracks rehearsal false _ hprogram).2.2.1 nofun⟩

end Client

end QueryKit
