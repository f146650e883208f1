import QueryKit.Proofs.Transaction.Holding

/-!
# Levels of transactions

- `Client.control_meets`: a statement that moves the master connection from one level to another
  does so, or the connection is closed and the transaction forgotten (`Client.Lost`).
- `Client.begin_keeps`, `Client.commit_keeps`, `Client.rollBack_keeps`, `Client.transaction_keeps`:
  the session stays in accord with its master connection, whatever fails.
-/

namespace QueryKit.Client

open Run

variable {σ α : Type} (c : Client σ) (replaces : Bool)

/-- The session holds no master connection and is in no transaction. -/
def Lost (w : RunState σ) : Prop :=
  c.Linked replaces 0 w.session w ∧
    w.session.level = 0 ∧ w.session.isolation = none ∧ w.session.master = none

/-- A statement on the master connection has failed, and the session does not know of it yet. -/
def Failing (level : Nat) (s : Session) (link : Link) (sql : String) (w : RunState σ) : Prop :=
  w.session = s ∧ s.master = some link ∧ ∃ j, w.journal = .sent link sql [] .failed :: j ∧
    Links c.connection replaces level j w.nextLink (some link) s.replica

variable {c replaces} {level level' : Nat} {s : Session} {link : Link} {sql : String}
  {w : RunState σ}

theorem Lost.sound (h : c.Lost replaces w) : c.Sound replaces w :=
  h.1.sound h.2.1 fun _ => h.2.2.1

/-- A statement on the master connection, after which `Q` holds if it has run. -/
theorem sendControl_meets {I : RunState σ → Prop} {Q : RunState σ → Prop}
    (hmaster : s.master = some link)
    (hdone : ∀ w servers, c.Linked replaces level s w →
      Q { w with servers, journal := .sent link sql [] .done :: w.journal }) :
    Meets I (Safe replaces) (c.Linked replaces level s)
      (Run.send link sql [] (c.backend.execute link sql [])).attempt
      (Tried (c.Failing replaces level s link sql) fun _ => Q) := by
  refine Meets.attempt ?_
  rintro w hw
  unfold Run.send
  rcases c.backend.execute link sql [] w.servers with ⟨a | e | _, servers⟩
  · exact hdone w servers hw
  · obtain ⟨rfl, hlinks⟩ := hw
    rw [hmaster] at hlinks
    exact ⟨rfl, hmaster, w.journal, rfl, hlinks⟩
  · exact ⟨hw.2.released.cons nofun, hw.2.discarded.cons nofun⟩

/-- The connection is closed at once, and no transaction is left. -/
theorem discardFailing_meets {I J : RunState σ → Prop} :
    Meets I J (c.Failing replaces level s link sql) discardMaster fun _ w => c.Lost replaces w ∧
      ∃ earlier, w.journal = .discarded link :: .sent link sql [] .failed :: earlier := by
  have hdrop : Meets I J (c.Failing replaces level s link sql) dropMaster
      fun _ w => c.Linked replaces 0 { s with master := none } w ∧
        ∃ earlier, w.journal = .discarded link :: .sent link sql [] .failed :: earlier := by
    refine Meets.session.bind fun s₀ => ?_
    cases hs₀ : s₀.master with
    | some l =>
      rintro w ⟨⟨rfl, hmaster, j, hj, hlinks⟩, rfl⟩
      rw [hmaster] at hs₀
      cases hs₀
      have hfailed := hlinks.failed sql []
      rw [← hj] at hfailed
      exact ⟨⟨rfl, hfailed⟩, j, congrArg _ hj⟩
    | none =>
      rintro w ⟨⟨rfl, hmaster, -⟩, rfl⟩
      rw [hmaster] at hs₀
      cases hs₀
  refine hdrop.bind fun _ => ?_
  rintro w ⟨⟨hs, hlinks⟩, hjournal⟩
  refine ⟨⟨⟨rfl, ?_⟩, rfl, rfl, ?_⟩, hjournal⟩
  · change Links c.connection replaces 0 w.journal w.nextLink w.session.master w.session.replica
    rwa [hs]
  · change w.session.master = none
    rw [hs]

/-- A statement that moves the master connection to another level. -/
theorem control_meets (hmoves : Moves sql level level')
    (hsupported : 1 < level' → c.connection.supportsSavepoint = true) :
    Meets (c.Lost replaces) (Safe replaces) (c.Linked replaces level s) (c.control sql)
      fun _ w => ∃ link, c.Linked replaces level' { s with master := some link } w := by
  refine (mainLinkAt_meets 0).attempt.bind fun r => ?_
  cases r with
  | error e =>
    rintro w ⟨hs, rfl, hlinks⟩
    rw [hs] at hlinks
    have hlinks := hlinks.noMaster
    refine ⟨⟨rfl, ?_⟩, rfl, rfl, hs⟩
    rwa [← hs] at hlinks
  | ok link =>
    refine Meets.bind (R := Tried (c.Failing replaces level { s with master := some link } link sql)
      fun _ => c.Linked replaces level' { s with master := some link })
      (sendControl_meets rfl ?_) fun r => ?_
    · rintro w servers ⟨hs, hlinks⟩
      exact ⟨hs, hlinks.moved hmoves hsupported []⟩
    · cases r with
      | ok executed => exact .pure fun w hw => ⟨link, hw⟩
      | error e => exact discardFailing_meets.bind fun _ => .fail fun _ hw => hw.1

/-- Going on with the session that was read from a sound state. -/
theorem Sound.session {f : Session → Run σ α} {Q : α → RunState σ → Prop}
    (h : ∀ s : Session, (s.level = 0 → s.isolation = none) →
      Meets (c.Sound replaces) (Safe replaces) (c.Linked replaces s.level s) (f s) Q) :
    Meets (c.Sound replaces) (Safe replaces) (c.Sound replaces) (Run.session >>= f) Q := by
  refine Meets.session.bind fun s => ?_
  rintro w ⟨hw, rfl⟩
  exact h w.session hw.2 w hw.1

/-! ## Beginning -/

/-- Statements in turn do what each of them does. -/
theorem controlAll_meets {ι : Type} {R : String → ι → ι → Prop} {I J : RunState σ → Prop}
    {P : ι → Session → RunState σ → Prop}
    (hcontrol : ∀ {sql a b s}, R sql a b → Meets I J (P a s) (c.control sql)
      fun _ w => ∃ link, P b { s with master := some link } w)
    {statements : List String} {a b : ι} (h : Path R statements a b) :
    Meets I J (P a s) (c.controlAll statements) fun _ w => ∃ master, P b { s with master } w := by
  induction h generalizing s with
  | nil a => exact .pure fun w hw => ⟨s.master, hw⟩
  | cons hstep _ ih => exact (hcontrol hstep).bind fun _ => .of_exists fun link => ih

theorem beginOutermost_meets (isolation : Option IsolationLevel) (hlevel : s.level = 0)
    (hs : s.isolation = none) :
    Meets (c.Sound replaces) (Safe replaces) (c.Linked replaces 0 s) (c.beginOutermost isolation)
      fun _ => c.Sound replaces := by
  let R : String → Nat → Nat → Prop := fun sql a b => Moves sql a b ∧ b ≤ 1
  have hpath : ∀ statements, beginStatements c.connection.dialect isolation = .ok statements →
      Path R statements 0 1 := fun statements =>
    beginStatements_path ⟨moves_begin _, Nat.le_refl 1⟩ fun level sql hsql =>
      have hmoves := moves_of_none (Control.ofSql_isolationSql hsql)
      ⟨⟨hmoves 0, Nat.zero_le 1⟩, hmoves 1, Nat.le_refl 1⟩
  refine Meets.bind (R := fun statements w => Path R statements 0 1 ∧ c.Linked replaces 0 s w) ?_
    fun statements => .of_fact fun hpath => ?_
  · exact .ofResult (fun statements hok w hw => ⟨hpath statements hok, hw⟩)
      fun w hw => hw.sound hlevel fun _ => hs
  · refine (Meets.log linked_stable _ _).bind fun _ => ?_
    have hcontrol : ∀ {sql a b s}, R sql a b → Meets (c.Lost replaces) (Safe replaces)
        (c.Linked replaces a s) (c.control sql)
        fun _ w => ∃ link, c.Linked replaces b { s with master := some link } w :=
      fun h => control_meets h.1 fun hlt => absurd hlt (Nat.not_lt.mpr h.2)
    refine ((controlAll_meets hcontrol hpath).of_failed fun _ h => h.sound).bind fun _ => ?_
    refine .of_exists fun master => (modifySession_meets rfl rfl).imp fun _ w hw => hw.sound rfl ?_
    exact fun h => absurd h (Nat.succ_ne_zero 0)

theorem beginSavepoint_meets (hlevel : s.level = level + 1) :
    Meets (c.Sound replaces) (Safe replaces) (c.Linked replaces (level + 1) s)
      (c.beginSavepoint (level + 1)) fun _ => c.Sound replaces := by
  have hs : s.level = 0 → s.isolation = none := fun h => by omega
  refine .ite (fun hsupported => ?_) fun _ => ?_
  · refine (Meets.log linked_stable _ _).bind fun _ => ?_
    refine Meets.bind ((control_meets (moves_savepoint level) fun _ => hsupported).of_failed
      fun _ h => h.sound) fun _ => .of_exists fun link => ?_
    refine (modifySession_meets rfl rfl).imp fun _ w hw => hw.sound (congrArg _ hlevel) ?_
    exact fun h => absurd h (Nat.succ_ne_zero _)
  · refine (Meets.log linked_stable _ _).bind fun _ => ?_
    exact .fail fun w hw => hw.sound hlevel hs

theorem begin_keeps (isolation : Option IsolationLevel) :
    Keeps (c.Sound replaces) (Safe replaces) (c.begin isolation) := by
  refine Sound.session fun s hs => ?_
  dsimp only
  cases hlevel : s.level with
  | zero => exact beginOutermost_meets isolation hlevel (hs hlevel)
  | succ level => exact beginSavepoint_meets hlevel

/-! ## Ending -/

theorem leaveLevel_meets {I J : RunState σ → Prop} :
    Meets I J (c.Linked replaces level s) leaveLevel fun outer w =>
      outer = s.level - 1 ∧ c.Linked replaces level { s with level := s.level - 1 } w := by
  rintro w ⟨rfl, hlinks⟩
  exact ⟨rfl, rfl, hlinks⟩

/-- The last statement of a transaction: the session has left it already. -/
theorem endOutermost_meets {message : String} (hmoves : Moves sql 1 0) (hlevel : s.level = 0) :
    Meets (c.Sound replaces) (Safe replaces) (c.Linked replaces 1 s) (c.endOutermost message sql)
      fun _ => c.Sound replaces := by
  refine (Meets.log linked_stable _ _).bind fun _ => ?_
  refine (modifySession_meets (s := s) rfl rfl).bind fun _ => ?_
  refine ((control_meets hmoves nofun).of_failed fun _ h => h.sound).bind fun _ => ?_
  refine .of_exists fun link => ?_
  exact (release_keeps true).of_imp fun w hw => hw.sound hlevel fun _ => rfl

/-- A statement that ends an inner level: the session has left it already. -/
theorem endInner_meets (hmoves : Moves sql (level + 2) (level + 1)) (hlevel : s.level = level + 1)
    (hsupported : c.connection.supportsSavepoint = true) :
    Meets (c.Sound replaces) (Safe replaces) (c.Linked replaces (level + 2) s) (c.control sql)
      fun _ => c.Sound replaces := by
  refine ((control_meets hmoves fun _ => hsupported).of_failed fun _ h => h.sound).imp ?_
  rintro _ w ⟨link, hw⟩
  exact hw.sound hlevel fun h => absurd (hlevel.symm.trans h) (Nat.succ_ne_zero level)

/-- The innermost level ends with one statement if it is the outermost one, and with another if it
is a savepoint. -/
theorem endLevel_meets {message outermost unsupported : String} {text : Nat → String}
    (inner : Nat → String) (hout : Moves outermost 1 0)
    (hin : ∀ level, Moves (inner (level + 1)) (level + 2) (level + 1))
    (hactive : s.isActive = true) :
    Meets (c.Sound replaces) (Safe replaces) (c.Linked replaces s.level s)
      (do
        let level ← leaveLevel
        if level = 0 then c.endOutermost message outermost
        else if c.connection.supportsSavepoint then
          Run.log .debug (text level)
          c.control (inner level)
        else Run.log .info unsupported) fun _ => c.Sound replaces := by
  refine leaveLevel_meets.bind fun outer => .of_fact ?_
  rintro rfl
  cases hlevel : s.level with
  | zero => simp [Session.isActive, hlevel] at hactive
  | succ level =>
    cases level with
    | zero => exact endOutermost_meets hout rfl
    | succ level =>
      refine .ite (fun h => absurd h (Nat.succ_ne_zero level)) fun _ => ?_
      refine .ite (fun hsupported => ?_) fun hunsupported => ?_
      · refine (Meets.log linked_stable _ _).bind fun _ => ?_
        exact endInner_meets (hin level) rfl hsupported
      · -- A level inside another was begun with a savepoint.
        rintro w ⟨-, hlinks⟩
        exact absurd (hlinks.supported (by omega)) hunsupported

theorem commit_keeps : Keeps (c.Sound replaces) (Safe replaces) c.commit := by
  refine Sound.session fun s hs => .ite (fun hactive => ?_) fun _ => ?_
  · exact endLevel_meets (fun level => "RELEASE SAVEPOINT " ++ savepointName level) moves_commit
      moves_release hactive
  · refine Meets.bind ((release_keeps true).of_imp fun w hw => hw.sound rfl hs) fun _ => ?_
    exact .fail fun _ hw => hw

theorem rollBack_keeps : Keeps (c.Sound replaces) (Safe replaces) c.rollBack := by
  refine Sound.session fun s hs => .ite (fun hactive => ?_) fun _ => ?_
  · exact endLevel_meets (fun level => "ROLLBACK TO SAVEPOINT " ++ savepointName level)
      moves_rollBack moves_rollBackTo hactive
  · exact (release_keeps true).of_imp fun w hw => hw.sound rfl hs

theorem setIsolationLevel_keeps (isolation : IsolationLevel) :
    Keeps (c.Sound replaces) (Safe replaces) (c.setIsolationLevel isolation) := by
  refine Sound.session fun s hs => .ite (fun _ => ?_) fun _ => ?_
  · refine (Meets.log linked_stable _ _).bind fun _ => ?_
    refine Meets.bind (R := fun sql w => Control.ofSql sql = none ∧ c.Linked replaces s.level s w)
      (.ofResult (fun sql hok w hw => ⟨Control.ofSql_isolationSql hok, hw⟩)
        fun w hw => hw.sound rfl hs) fun sql w ⟨hsql, hw⟩ => ?_
    refine (((control_meets (moves_of_none hsql s.level) hw.2.supported).of_failed
      fun _ h => h.sound).imp ?_) w hw
    rintro _ w ⟨link, hw⟩
    exact hw.sound rfl hs
  · refine Meets.bind ((release_keeps true).of_imp fun w hw => hw.sound rfl hs) fun _ => ?_
    exact .fail fun _ hw => hw

/-! ## Steps inside a level -/

theorem isAtLevel_keeps (n : Nat) : Keeps (c.Sound replaces) (Safe replaces) (isAtLevel n) :=
  .session fun _ => .pure

theorem rollBackLevel_keeps (n : Nat) :
    Keeps (c.Sound replaces) (Safe replaces) (c.rollBackLevel n) := by
  refine (isAtLevel_keeps n).bind fun atLevel => .ite (fun _ => ?_) fun _ => Keeps.pure
  refine rollBack_keeps.attempt.bind fun r => ?_
  split
  · exact Meets.log sound_stable _ _
  · exact .pure

/-- A step inside a level of its own, if the step keeps the session in accord with its master
connection. -/
theorem transaction_keeps (isolation : Option IsolationLevel) {x : Run σ α}
    (hx : Keeps (c.Sound replaces) (Safe replaces) x) :
    Keeps (c.Sound replaces) (Safe replaces) (c.transaction isolation x) := by
  refine (begin_keeps isolation).bind fun _ => .session fun s => hx.attempt.bind fun r => ?_
  cases r with
  | ok a =>
    refine (isAtLevel_keeps s.level).bind fun atLevel => ?_
    exact .ite (fun _ => commit_keeps.bind fun _ => Keeps.pure) fun _ => Keeps.pure
  | error e => exact (rollBackLevel_keeps s.level).bind fun _ => .fail

end QueryKit.Client
