import QueryKit.Proofs.Transaction.Program
import QueryKit.Proofs.Transaction.Server

/-!
# Levels are nested transactions

- `Client.Refines s m`: the session is `s`, the servers show the state `m` of the ideal machine, and
  no statement has failed.
- `Client.AtLevel m`: and the level of the session is the number of levels that the machine has
  open.
- `Client.begin_refines`, `Client.commit_refines`, `Client.rollBack_refines`,
  `Client.execute_refines`: the operations of a session do what the machine does.
- `Client.runAll_refines`: after any operations in turn, the data of the servers is that of the
  machine, and the savepoints that were released and returned to are those of the levels that ended.
-/

namespace QueryKit

open Client (beginStatements)

/-! ## Steps -/

variable {σ D : Type}

/-- An operation of a session that the machine has a counterpart of. -/
inductive Step where
  | begin (isolation : Option IsolationLevel)
  | commit
  | rollBack
  | change (cmd : Command)

/-- Its command, if it has one, does not begin or end a transaction or name a savepoint. -/
def Step.IsPlain (conn : Connection) : Step → Prop
  | .change cmd => cmd.IsPlain conn
  | _ => True

/-- Take one step. -/
def Step.run (c : Client σ) : Step → Run σ Unit
  | .begin isolation => c.begin isolation
  | .commit => c.commit
  | .rollBack => c.rollBack
  | .change cmd => do
    let _ ← c.execute cmd

/-- Take steps in turn, whether or not one of them fails. -/
def Client.runAll (c : Client σ) : List Step → Run σ Unit
  | [] => return ()
  | step :: steps => do
    let _ ← (step.run c).attempt
    runAll c steps

/-- What the machine does at a step. A transaction does not begin at an isolation level that the
dialect cannot set, and there is nothing to do for a statement that cannot be prepared. -/
def Ideal.step (conn : Connection) (e : Engine D) (m : Ideal D) : Step → Ideal D
  | .begin isolation =>
    match m.stack, beginStatements conn.dialect isolation with
    | [], .error _ => m
    | _, _ => m.begin
  | .commit => m.leave false
  | .rollBack => m.leave true
  | .change cmd =>
    match cmd.preparation conn with
    | .ok p => if cmd.sql = "" then m else { m with data := e.change p.sql p.values m.data }
    | .error _ => m

namespace Client

open Run

variable {α D : Type}

/-- A client of servers with savepoints that answer every call. -/
structure Reliable (c : Client (Server D)) (e : Engine D) (replaces : Bool) : Prop where
  backend : c.backend = e.backend replaces
  /-- There is a server for writing. -/
  main : c.connection.masters = [] → c.connection.primary.isSome = true
  savepoints : c.connection.supportsSavepoint = true
  /-- A statement is attempted at least once. -/
  patience : 0 < c.patience

/-- The session is `s`, and the servers show the state of the ideal machine. No server is skipped
and no statement has failed. -/
structure Refines (s : Session) (m : Ideal D) (w : RunState (Server D)) : Prop where
  session : w.session = s
  dead : w.dead = []
  shows : w.servers.Shows s.master m
  succeeded : ∀ link sql values, Event.sent link sql values .failed ∉ w.journal

/-- The session is at the level of the ideal machine. -/
def AtLevel (m : Ideal D) (w : RunState (Server D)) : Prop :=
  Refines w.session m w ∧ w.session.level = m.stack.length

variable {s : Session} {m m' : Ideal D} {w : RunState (Server D)} {c : Client (Server D)}
  {e : Engine D} {replaces : Bool} {I J : RunState (Server D) → Prop}

theorem Refines.atLevel (h : Refines s m w) (hlevel : s.level = m.stack.length) : AtLevel m w := by
  obtain rfl := h.session
  exact ⟨h, hlevel⟩

/-- Another event, which is not a failure, and another state of what the machine does not know. -/
theorem Refines.noted (h : Refines s m w) {w' : RunState (Server D)} {event : Event}
    (hsession : w'.session = w.session) (hdead : w'.dead = w.dead)
    (hservers : w'.servers = w.servers) (hjournal : w'.journal = event :: w.journal)
    (hevent : ∀ link sql values, Event.sent link sql values .failed ≠ event) : Refines s m w' := by
  refine ⟨hsession.trans h.session, hdead.trans h.dead, ?_, fun link sql values hmem => ?_⟩
  · rw [hservers]
    exact h.shows
  · rw [hjournal] at hmem
    rcases List.mem_cons.mp hmem with heq | hmem
    · exact hevent link sql values heq
    · exact h.succeeded link sql values hmem

theorem log_refines (level : LogLevel) (text : String) :
    Meets I J (Refines s m) (Run.log level text) fun _ => Refines s m :=
  .modify fun _ hw => hw.noted rfl rfl rfl rfl nofun

/-- Going on with the session that was read. -/
theorem AtLevel.session {f : Session → Run (Server D) α} {Q : α → RunState (Server D) → Prop}
    (h : ∀ s : Session, s.level = m.stack.length → Meets I J (Refines s m) (f s) Q) :
    Meets I J (AtLevel m) (Run.session >>= f) Q := by
  refine Meets.session.bind fun s => ?_
  rintro w ⟨⟨hw, hlevel⟩, rfl⟩
  exact h w.session hlevel w hw

/-- A change to the session that leaves its master connection alone. -/
theorem modifySession_refines {f : Session → Session} (hmaster : (f s).master = s.master) :
    Meets I J (Refines s m) (Run.modifySession f) fun _ => Refines (f s) m := by
  rintro w ⟨rfl, hdead, hshows, hsucceeded⟩
  refine ⟨rfl, hdead, ?_, hsucceeded⟩
  rwa [hmaster]

/-! ## Connections -/

/-- A server that never fails is never skipped. -/
theorem isServerDead_refines (dsn : String) :
    Meets I J (Refines s m) (isServerDead dsn) fun dead w => dead = false ∧ Refines s m w := by
  refine Meets.state.bind fun w => ?_
  rintro w' ⟨hw, rfl⟩
  rw [hw.dead]
  exact ⟨rfl, hw⟩

theorem acquire_refines (hc : c.Reliable e replaces) (pool : Pool) :
    Meets I J (Refines s m) (c.acquire pool) fun _ => Refines s m := by
  intro w hw
  unfold acquire
  rw [hc.backend]
  exact hw.noted rfl rfl rfl rfl nofun

theorem openFirst_refines (hc : c.Reliable e replaces) : ∀ pools : List Pool,
    Meets I J (Refines s m) (c.openFirst pools)
      fun found w => (pools ≠ [] → found.isSome = true) ∧ Refines s m w
  | [] => .pure fun _ hw => ⟨fun h => absurd rfl h, hw⟩
  | pool :: pools => by
    refine (isServerDead_refines pool.dsn).bind fun dead => .of_fact ?_
    rintro rfl
    refine .ite nofun fun _ => ?_
    refine (acquire_refines hc pool).attempt_bind fun link => ?_
    exact .pure fun w hw => ⟨fun _ => rfl, hw⟩

theorem arranged_refines (hc : c.Reliable e replaces) (shuffled : Bool) (pools : List Pool) :
    Meets I J (Refines s m) (c.arranged shuffled pools)
      fun arranged w => arranged = pools ∧ Refines s m w := by
  refine .ite (fun _ => ?_) fun _ => .pure fun _ hw => ⟨rfl, hw⟩
  rw [hc.backend]
  exact fun _ hw => ⟨rfl, hw⟩

theorem openReplica_refines (hc : c.Reliable e replaces) :
    Meets I J (Refines s m) c.openReplica fun _ => Refines s m := by
  refine .ite (fun _ => ?_) fun _ => .pure fun _ hw => hw
  refine (arranged_refines hc true _).bind fun pools => .of_fact fun _ => ?_
  exact (openFirst_refines hc pools).imp fun _ _ hw => hw.2

theorem openMain_refines (hc : c.Reliable e replaces) (attempt : Nat) :
    Meets I J (Refines s m) (c.openMain attempt) fun _ => Refines s m := by
  refine .ite (fun hmasters => ?_) fun hmasters => ?_
  · refine (arranged_refines hc _ _).bind fun pools => .of_fact ?_
    rintro rfl
    refine (openFirst_refines hc _).bind fun found => .of_fact fun hfound => ?_
    cases found with
    | some link => exact .pure fun _ hw => hw
    | none => exact absurd (hfound hmasters) nofun
  · have hprimary := hc.main (Decidable.not_not.mp hmasters)
    split
    · next hnone =>
      rw [hnone] at hprimary
      exact absurd hprimary nofun
    · refine (acquire_refines hc _).bind fun link => ?_
      refine .ite (fun _ => ?_) fun _ => .pure fun _ hw => hw
      exact (log_refines _ _).bind fun _ => .pure fun _ hw => hw

/-- The session holds the connection that is found. -/
theorem mainLinkAt_refines (hc : c.Reliable e replaces) (attempt : Nat) :
    Meets I J (Refines s m) (c.mainLinkAt attempt)
      fun link => Refines { s with master := some link } m := by
  refine Meets.session.bind fun s₀ => ?_
  cases hmaster : s₀.master with
  | some link =>
    refine .pure ?_
    rintro w ⟨hw, rfl⟩
    rwa [← hw.session, Session.eq_of_master hmaster, hw.session]
  | none =>
    refine Meets.of_imp (P := fun w => (s.master = none ∧ m.stack = []) ∧ Refines s m w) ?_ ?_
    · rintro w ⟨hw, rfl⟩
      have hnone : s.master = none := by rw [← hw.session, hmaster]
      have hshows := hw.shows
      rw [hnone] at hshows
      exact ⟨⟨hnone, hshows.stack_eq_nil⟩, hw⟩
    · refine .of_fact fun hs => (openMain_refines hc attempt).bind fun link => ?_
      refine Meets.bind (R := fun _ => Refines { s with master := some link } m) (.modify ?_)
        fun _ => .pure fun _ hw => hw
      rintro w ⟨rfl, hdead, hshows, hsucceeded⟩
      exact ⟨rfl, hdead, hshows.of_nil hs.2 _, hsucceeded⟩

/-- A statement may be sent on any connection outside transactions, and inside on the one that the
session holds. -/
theorem linkFor_refines (hc : c.Reliable e replaces) (read : Bool) :
    Meets I J (AtLevel m) (c.linkFor read) fun _ => AtLevel m := by
  refine AtLevel.session fun s hlevel => ?_
  have hmainLink : ∀ {s : Session}, s.level = m.stack.length →
      Meets I J (Refines s m) c.mainLink fun _ => AtLevel m := fun hlevel =>
    (mainLinkAt_refines hc 0).imp fun _ _ hw => hw.atLevel hlevel
  refine .ite (fun _ => hmainLink hlevel) fun _ => ?_
  split
  · exact .pure fun _ hw => hw.atLevel hlevel
  · refine (openReplica_refines hc).bind fun found => ?_
    split
    · exact (modifySession_refines rfl).bind fun _ => .pure fun _ hw => hw.atLevel hlevel
    · exact (modifySession_refines rfl).bind fun _ => hmainLink hlevel

theorem stack_eq_nil (hlevel : s.level = m.stack.length) (hinactive : ¬ s.isActive = true) :
    m.stack = [] := by
  have hzero : s.level = 0 := by simpa [Session.isActive] using hinactive
  exact List.eq_nil_of_length_eq_zero (hlevel.symm.trans hzero)

/-- Without open levels the master connection may be given back. -/
theorem releaseMaster_refines (hstack : m.stack = []) :
    Meets I J (Refines s m) releaseMaster fun _ => Refines { s with master := none } m := by
  refine Meets.session.bind fun s₀ => ?_
  split
  · rintro w ⟨hw, -⟩
    have hnone : Refines { s with master := none } m
        { w with session := { w.session with master := none } } := by
      obtain ⟨rfl, hdead, hshows, hsucceeded⟩ := hw
      exact ⟨rfl, hdead, hshows.of_nil hstack none, hsucceeded⟩
    exact hnone.noted rfl rfl rfl rfl nofun
  · next hnone =>
    refine .pure ?_
    rintro w ⟨hw, rfl⟩
    have hmaster : w.session.master = none := by
      cases hmaster : w.session.master with
      | none => rfl
      | some link => exact absurd hmaster (hnone link)
    rwa [← hw.session, Session.eq_of_master hmaster, hw.session]

theorem releaseReplica_refines : Meets I J (Refines s m) releaseReplica
    fun _ w => ∃ replica, Refines { s with replica } m w := by
  refine Meets.session.bind fun s₀ => ?_
  split
  · rintro w ⟨⟨rfl, hdead, hshows, hsucceeded⟩, -⟩
    have hnone : Refines { w.session with replica := none } m
        { w with session := { w.session with replica := none } } :=
      ⟨rfl, hdead, hshows, hsucceeded⟩
    exact ⟨none, hnone.noted rfl rfl rfl rfl nofun⟩
  · exact .pure fun w hw => ⟨s.replica, hw.1⟩

theorem release_refines (force : Bool) :
    Meets I J (AtLevel m) (c.release force) fun _ => AtLevel m := by
  refine AtLevel.session fun s hlevel => .ite (fun hinactive => ?_) fun _ => ?_
  · have hactive : ¬ s.isActive = true := fun h => by simp [h] at hinactive
    refine (releaseMaster_refines (stack_eq_nil hlevel hactive)).bind fun _ => ?_
    refine releaseReplica_refines.bind fun _ => ?_
    refine .of_exists fun replica => (modifySession_refines rfl).imp fun _ w hw => ?_
    exact hw.atLevel hlevel
  · exact .pure fun _ hw => hw.atLevel hlevel

/-! ## Levels -/

/-- A statement that does not fail. -/
theorem send_refines (hc : c.Reliable e replaces) {link : Link} {sql : String} {values : List Value}
    (h : ∀ servers : Server D, servers.Shows s.master m → ∃ executed servers',
      e.execute replaces link sql values servers = (.done executed, servers') ∧
        servers'.Shows s.master m') :
    Meets I J (Refines s m) (Run.send link sql values (c.backend.execute link sql values))
      fun _ => Refines s m' := by
  intro w hw
  obtain ⟨executed, servers, hexecute, hshows⟩ := h w.servers hw.shows
  have hcall : c.backend.execute link sql values w.servers = (.done executed, servers) := by
    rw [hc.backend]
    exact hexecute
  have hw' : Refines s m' { w with servers } := ⟨hw.session, hw.dead, hshows, hw.succeeded⟩
  have hsent : Refines s m'
      { w with servers, journal := .sent link sql values .done :: w.journal } :=
    hw'.noted rfl rfl rfl rfl nofun
  unfold Run.send
  rw [hcall]
  exact hsent

/-- A statement that takes the servers from one state of the machine to another. -/
theorem control_refines (hc : c.Reliable e replaces) {sql : String}
    (hcarries : Carries e replaces sql m m') :
    Meets I J (Refines s m) (c.control sql)
      fun _ w => ∃ link, Refines { s with master := some link } m' w := by
  refine Meets.attempt_bind (mainLinkAt_refines hc 0) fun link => ?_
  refine Meets.attempt_bind (send_refines hc (hcarries link)) fun executed => ?_
  exact .pure fun w hw => ⟨link, hw⟩

theorem beginOutermost_refines (hc : c.Reliable e replaces) {isolation : Option IsolationLevel}
    {statements : List String} (hstack : m.stack = [])
    (hstatements : beginStatements c.connection.dialect isolation = .ok statements) :
    Meets I J (Refines s m) (c.beginOutermost isolation) fun _ => AtLevel m.begin := by
  have hpath : Path (Carries e replaces) statements m m.begin :=
    beginStatements_path (carries_begin _ hstack)
      (fun _ _ hsql => ⟨carries_isolation hsql m, carries_isolation hsql m.begin⟩) hstatements
  have hlevel : 1 = m.begin.stack.length := by
    rw [Ideal.begin, hstack]
    rfl
  unfold beginOutermost
  rw [hstatements]
  refine Meets.bind (R := fun r w => r = statements ∧ Refines s m w)
    (.pure fun _ hw => ⟨rfl, hw⟩) fun r => .of_fact ?_
  rintro rfl
  refine (log_refines _ _).bind fun _ => ?_
  have hall : Meets I J (Refines s m) (c.controlAll r)
      fun _ w => ∃ master, Refines { s with master } m.begin w :=
    controlAll_meets (P := fun m s => Refines s m) (fun h => control_refines hc h) hpath
  refine hall.bind fun _ => .of_exists fun master => ?_
  exact (modifySession_refines rfl).imp fun _ w hw => hw.atLevel hlevel

/-- An inner level begins with a savepoint. -/
theorem beginSavepoint_refines (hc : c.Reliable e replaces) {level : Nat}
    (hlevel : s.level = level + 1) (hstack : m.stack.length = level + 1) :
    Meets I J (Refines s m) (c.beginSavepoint (level + 1)) fun _ => AtLevel m.begin := by
  refine .ite (fun _ => ?_) fun h => absurd hc.savepoints h
  refine (log_refines _ _).bind fun _ => ?_
  refine (control_refines hc (carries_savepoint hstack)).bind fun _ => ?_
  refine .of_exists fun link => (modifySession_refines rfl).imp fun _ w hw => ?_
  exact hw.atLevel (congrArg (· + 1) (hlevel.trans hstack.symm))

theorem leaveLevel_refines : Meets I J (Refines s m) leaveLevel fun outer w =>
    outer = s.level - 1 ∧ Refines { s with level := s.level - 1 } m w := by
  rintro w ⟨rfl, hdead, hshows, hsucceeded⟩
  exact ⟨rfl, rfl, hdead, hshows, hsucceeded⟩

/-- The innermost level ends with one statement if it is the outermost one, and with another if it
is a savepoint. -/
theorem endLevel_refines (hc : c.Reliable e replaces) {restores : Bool}
    {message outermost unsupported : String} {text : Nat → String} (inner : Nat → String)
    (hout : m.stack.length = 1 → Carries e replaces outermost m (m.leave restores))
    (hin : ∀ level, m.stack.length = level + 2 →
      Carries e replaces (inner (level + 1)) m (m.leave restores))
    (hlevel : s.level = m.stack.length) (hactive : s.isActive = true) :
    Meets I J (Refines s m)
      (do
        let level ← leaveLevel
        if level = 0 then c.endOutermost message outermost
        else if c.connection.supportsSavepoint then
          Run.log .debug (text level)
          c.control (inner level)
        else Run.log .info unsupported) fun _ => AtLevel (m.leave restores) := by
  have hleave : s.level - 1 = (m.leave restores).stack.length := by
    rw [m.leave_length, hlevel]
  refine leaveLevel_refines.bind fun outer => .of_fact ?_
  rintro rfl
  cases hs : s.level with
  | zero => simp [Session.isActive, hs] at hactive
  | succ level =>
    rw [hs] at hleave hlevel
    cases level with
    | zero =>
      refine .ite (fun _ => ?_) fun h => absurd rfl h
      refine (log_refines _ _).bind fun _ => ?_
      refine (modifySession_refines (s := { s with level := 0 }) rfl).bind fun _ => ?_
      refine (control_refines hc (hout hlevel.symm)).bind fun _ => .of_exists fun link => ?_
      exact (release_refines true).of_imp fun _ hw => hw.atLevel hleave
    | succ level =>
      refine .ite (fun h => absurd h (Nat.succ_ne_zero level)) fun _ => ?_
      refine .ite (fun _ => ?_) fun h => absurd hc.savepoints h
      refine (log_refines _ _).bind fun _ => ?_
      refine (control_refines hc (hin level hlevel.symm)).imp ?_
      rintro _ w ⟨link, hw⟩
      exact hw.atLevel hleave

/-! ## Operations -/

theorem begin_refines (hc : c.Reliable e replaces) (isolation : Option IsolationLevel) :
    Meets (AtLevel (m.step c.connection e (.begin isolation))) J (AtLevel m) (c.begin isolation)
      fun _ => AtLevel (m.step c.connection e (.begin isolation)) := by
  refine AtLevel.session fun s hlevel => ?_
  dsimp only
  cases hs : s.level with
  | zero =>
    have hstack : m.stack = [] := List.eq_nil_of_length_eq_zero (hlevel.symm.trans hs)
    cases hstatements : beginStatements c.connection.dialect isolation with
    | ok statements =>
      have hstep : m.step c.connection e (.begin isolation) = m.begin := by
        rw [Ideal.step, hstack, hstatements]
      rw [hstep]
      exact beginOutermost_refines hc hstack hstatements
    | error failure =>
      have hstep : m.step c.connection e (.begin isolation) = m := by
        rw [Ideal.step, hstack, hstatements]
      rw [hstep]
      unfold beginOutermost
      rw [hstatements]
      exact fun _ hw => hw.atLevel hlevel
  | succ level =>
    have hlength : m.stack.length = level + 1 := hlevel.symm.trans hs
    have hstep : m.step c.connection e (.begin isolation) = m.begin := by
      obtain ⟨l, outer, hstack⟩ := List.exists_cons_of_length_eq_add_one hlength
      rw [Ideal.step, hstack]
    rw [hstep]
    exact beginSavepoint_refines hc hs hlength

theorem commit_refines (hc : c.Reliable e replaces) :
    Meets (AtLevel (m.leave false)) J (AtLevel m) c.commit fun _ => AtLevel (m.leave false) := by
  refine AtLevel.session fun s hlevel => .ite (fun hactive => ?_) fun hinactive => ?_
  · exact endLevel_refines hc (fun level => "RELEASE SAVEPOINT " ++ savepointName level)
      carries_commit (fun _ => carries_release) hlevel hactive
  · have hleave : m.leave false = m := Ideal.leave_eq_self (stack_eq_nil hlevel hinactive) false
    rw [hleave]
    refine Meets.bind ((release_refines true).of_imp fun _ hw => hw.atLevel hlevel) fun _ => ?_
    exact .fail fun _ hw => hw

theorem rollBack_refines (hc : c.Reliable e replaces) :
    Meets I J (AtLevel m) c.rollBack fun _ => AtLevel (m.leave true) := by
  refine AtLevel.session fun s hlevel => .ite (fun hactive => ?_) fun hinactive => ?_
  · exact endLevel_refines hc (fun level => "ROLLBACK TO SAVEPOINT " ++ savepointName level)
      carries_rollBack (fun _ => carries_rollBackTo) hlevel hactive
  · have hleave : m.leave true = m := Ideal.leave_eq_self (stack_eq_nil hlevel hinactive) true
    rw [hleave]
    exact (release_refines true).of_imp fun _ hw => hw.atLevel hlevel

/-- A statement that does not concern transactions changes the data and nothing else. -/
theorem sendPrepared_refines (hc : c.Reliable e replaces) {p : Prepared}
    (hsql : Control.ofSql p.sql = none) (read : Bool) :
    Meets I J (AtLevel m) (c.sendPrepared read c.backend.execute p)
      fun _ => AtLevel { m with data := e.change p.sql p.values m.data } := by
  refine (linkFor_refines hc read).bind fun link => ?_
  rintro w ⟨hw, hlevel⟩
  have hsend : Meets I J (Refines w.session m)
      (Run.send link p.sql p.values (c.backend.execute link p.sql p.values))
      fun _ => Refines w.session { m with data := e.change p.sql p.values m.data } := by
    refine send_refines hc fun servers hshows => ?_
    refine ⟨e.executed p.sql p.values m.data, _, ?_, hshows.change _⟩
    rw [Engine.execute, hsql, hshows.data]
  exact hsend.imp (fun _ _ h => h.atLevel hlevel) w hw

/-- A step that cannot fail is taken once. -/
theorem retrying_meets {P : RunState (Server D) → Prop} {Q : α → RunState (Server D) → Prop}
    {x : Run (Server D) α} (hx : Meets (fun _ => False) J P x Q) (hpatience : 0 < c.patience)
    (rawSql : String) (attempt : Nat) :
    Meets I J P (c.retrying rawSql x c.patience attempt) fun _ w => ∃ a, Q a w := by
  obtain ⟨n, hn⟩ := Nat.exists_eq_add_one_of_ne_zero (Nat.ne_of_gt hpatience)
  rw [hn]
  exact hx.attempt_bind fun a => .pure fun w hw => ⟨a, hw⟩

theorem settle_refines (cmd : Command) (executed : Executed) :
    Meets I J (AtLevel m) (c.settle cmd executed) fun _ => AtLevel m := by
  have hmodify : Meets I J (AtLevel m) (Run.modifySession fun s : Session =>
      { s with lastInsertId := executed.insertId.or s.lastInsertId }) fun _ => AtLevel m := by
    rintro w ⟨⟨-, hdead, hshows, hsucceeded⟩, hlevel⟩
    exact ⟨⟨rfl, hdead, hshows, hsucceeded⟩, hlevel⟩
  refine hmodify.bind fun _ => ?_
  split
  · refine Meets.bind (R := fun _ => AtLevel m) ?_ fun _ => release_refines false
    rintro w ⟨⟨-, hdead, hshows, hsucceeded⟩, hlevel⟩
    exact ⟨⟨rfl, hdead, hshows, hsucceeded⟩, hlevel⟩
  · exact release_refines false

theorem execute_refines (hc : c.Reliable e replaces) {cmd : Command}
    (hcmd : cmd.IsPlain c.connection) :
    Meets I J (AtLevel m) (c.execute cmd)
      fun _ => AtLevel (m.step c.connection e (.change cmd)) := by
  have hlog : Meets I J (AtLevel m) (c.logQuery (cmd.rawSql c.connection)) fun _ => AtLevel m := by
    refine .ite (fun _ => ?_) fun _ => .pure fun _ hw => hw
    exact .modify fun w hw => ⟨hw.1.noted rfl rfl rfl rfl nofun, hw.2⟩
  refine hlog.bind fun _ => .ite (fun hsql => ?_) fun hsql => ?_
  · have hstep : m.step c.connection e (.change cmd) = m := by
      rw [Ideal.step]
      split
      · exact if_pos hsql
      · rfl
    rw [hstep]
    exact .pure fun _ hw => hw
  · have hrun : Meets I J (AtLevel m)
        (c.runCommand cmd (cmd.rawSql c.connection) c.backend.execute)
        fun _ => AtLevel (m.step c.connection e (.change cmd)) := by
      rw [Ideal.step]
      unfold runCommand
      cases hprepared : cmd.preparation c.connection with
      | error failure => exact .pure fun _ hw => hw
      | ok p =>
        dsimp only
        rw [if_neg hsql]
        have hsend := sendPrepared_refines (I := fun _ => False) (J := J) (m := m) hc
          (hcmd p hprepared) (isReadStatement cmd.sql)
        refine (retrying_meets hsend hc.patience _ 1).bind fun _ => .of_exists fun _ => ?_
        exact .pure fun _ hw => hw
    refine hrun.bind fun r => ?_
    dsimp only
    split
    · exact (release_refines false).bind fun _ => .pure fun _ hw => hw
    · exact (settle_refines _ _).bind fun _ => .pure fun _ hw => hw

/-- A session takes a step as the machine does, whether or not the step fails. -/
theorem step_refines (hc : c.Reliable e replaces) {step : Step}
    (hstep : step.IsPlain c.connection) :
    Meets (AtLevel (m.step c.connection e step)) J (AtLevel m) (step.run c)
      fun _ => AtLevel (m.step c.connection e step) := by
  cases step with
  | begin isolation => exact begin_refines hc isolation
  | commit => exact commit_refines hc
  | rollBack => exact rollBack_refines hc
  | change cmd => exact (execute_refines hc hstep).bind fun _ => .pure fun _ hw => hw

theorem runAll_meets (hc : c.Reliable e replaces) {steps : List Step}
    (hsteps : ∀ step ∈ steps, step.IsPlain c.connection) :
    Meets I J (AtLevel m) (c.runAll steps)
      fun _ => AtLevel (steps.foldl (Ideal.step c.connection e) m) := by
  induction steps generalizing m with
  | nil => exact .pure fun _ hw => hw
  | cons step steps ih =>
    have hstep := hsteps step List.mem_cons_self
    refine (step_refines hc hstep).attempt.bind fun r => ?_
    refine (ih fun s hs => hsteps s (List.mem_cons_of_mem step hs)).of_imp fun w hw => ?_
    cases r <;> exact hw

/-- After any steps of a session on servers with savepoints that answer every call, the data is that
of the machine. No statement has failed, and the savepoints that were released or returned to are
those that the levels of the machine began with, in the order in which the levels ended. -/
theorem runAll_refines (hc : c.Reliable e replaces) (data : D) {steps : List Step}
    (hsteps : ∀ step ∈ steps, step.IsPlain c.connection) :
    ∃ w, c.runAll steps (.ofConnection c.connection (.new data)) = (.done (), w) ∧
      let m := steps.foldl (Ideal.step c.connection e) (.new data)
      w.servers.data = m.data ∧ w.servers.ended = m.ended ∧ w.session.level = m.stack.length ∧
        ∀ link sql values, Event.sent link sql values .failed ∉ w.journal := by
  have hnew : AtLevel (.new data) (.ofConnection c.connection (.new data) : RunState (Server D)) :=
    ⟨⟨rfl, rfl, Server.new_shows data none, fun _ _ _ => nofun⟩, rfl⟩
  obtain ⟨_, w, hr, hw, hlevel⟩ := (runAll_meets hc hsteps).exists_done hnew
  exact ⟨w, hr, hw.shows.data, hw.shows.ended, hlevel, hw.succeeded⟩

/-- Servers that keep the values of all statements, the latest ones first. -/
def ledger : Engine (List Value) where
  change _ values data := values ++ data
  executed _ values _ := ⟨values.length, none⟩
  rows _ _ _ := []
  schema _ _ := none
  fault _ := .serialization
  isolation _ _ _ _ _ := rfl

/-- A prepared statement with a number. -/
def entered (n : Int64) : Command :=
  { Command.empty with
    sql := "INSERT INTO t VALUES (?)"
    params := ⟨[(.positional, .ofValue (.int64 n))]⟩
    prepared := some ⟨"INSERT INTO t VALUES ($1)", [.int64 n]⟩ }

/-- A level is rolled back, and another one that begins with a savepoint of its name is committed.
-/
def entries : List Step :=
  [.begin none, .change (entered 1), .begin none, .change (entered 2), .rollBack, .begin none,
    .change (entered 3), .commit, .commit]

theorem entered_isPlain (n : Int64) : (entered n).IsPlain rehearsal.connection := by
  have hsql : Control.ofSql "INSERT INTO t VALUES ($1)" = none := by decide
  intro p hp
  cases hp
  exact hsql

/-- A client of such servers. -/
def bookkeeping : Client (Server (List Value)) :=
  ⟨rehearsal.connection, ledger.backend false, 1⟩

theorem entries_refine : ∃ w, bookkeeping.runAll entries
      (.ofConnection bookkeeping.connection (.new [])) = (.done (), w) ∧
    w.servers.data = [.int64 3, .int64 1] ∧ w.servers.ended = [2, 1] := by
  have hc : bookkeeping.Reliable ledger false := ⟨rfl, fun _ => rfl, rfl, Nat.one_pos⟩
  have hsteps : ∀ step ∈ entries, step.IsPlain bookkeeping.connection := by
    intro step hstep
    cases step with
    | change cmd =>
      have hcmd : cmd = entered 1 ∨ cmd = entered 2 ∨ cmd = entered 3 := by
        simpa [entries] using hstep
      rcases hcmd with rfl | rfl | rfl
      · exact entered_isPlain 1
      · exact entered_isPlain 2
      · exact entered_isPlain 3
    | _ => trivial
  obtain ⟨w, hr, hdata, hended, -⟩ := runAll_refines hc [] hsteps
  exact ⟨w, hr, hdata, hended⟩

end Client

end QueryKit
