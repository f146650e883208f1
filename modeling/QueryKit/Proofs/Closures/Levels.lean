import QueryKit.Proofs.Connections.Cancelled

/-!
# The statements of a level

- `RunState.events`, `Journal.texts`: what happened from one state to another, and the statements
  among it.
- `Journal.Severed`: a statement that begins or ends a level failed, and its connection was closed.
- `Client.Came w n sent w'`: from `w` on the statements `sent` were sent, and the level is `n`.
- `Client.opening`, `Client.closing`: what a level begins and ends with (`Client.begin_came`,
  `Client.endLevel_came`).
- `Client.finish`: what is left to do when the step inside a level has ended
  (`Client.transaction_ended`). The level is closed, or the connection is (`Client.finish_came`).
-/

namespace QueryKit

/-- The statements among events. -/
def Journal.texts (events : List Event) : List String :=
  events.filterMap fun e =>
    match e with
    | .sent _ sql _ _ => some sql
    | _ => none

/-- Whether the event is a statement that failed. -/
def Event.isFailure : Event → Bool
  | .sent _ _ _ .failed => true
  | _ => false

/-- How a step ends that has a result or a failure. -/
def Outcome.ofResult {α : Type} : Result α → Outcome α
  | .ok a => .done a
  | .error e => .failed e

/-- A statement by which levels begin and end. -/
def Dialect.Controls (d : Dialect) (sql : String) : Prop :=
  d.Begins sql ∨ (Control.ofSql sql).isSome = true

/-- A statement by which levels begin and end failed, and the connection was closed at once. -/
def Journal.Severed (d : Dialect) (events : List Event) : Prop :=
  ∃ link sql, d.Controls sql ∧ [.sent link sql [] .failed, .discarded link] <:+: events

/-- What happened from one state to another, in its order. -/
def RunState.events {σ : Type} (w w' : RunState σ) : List Event :=
  w'.journal.since w.journal.length

namespace Journal

variable {d : Dialect} {events more : List Event}

theorem texts_append : texts (events ++ more) = texts events ++ texts more :=
  List.filterMap_append

theorem texts_of_silent (h : ∀ e ∈ events, e.IsSilent) : texts events = [] := by
  refine List.filterMap_eq_nil_iff.mpr fun e he => ?_
  cases e with
  | sent => exact (h _ he).elim
  | _ => rfl

theorem Severed.append_right (h : Severed d events) : Severed d (events ++ more) := by
  obtain ⟨link, sql, hsql, hevents⟩ := h
  exact ⟨link, sql, hsql, hevents.trans (List.prefix_append _ _).isInfix⟩

theorem Severed.append_left (h : Severed d more) : Severed d (events ++ more) := by
  obtain ⟨link, sql, hsql, hevents⟩ := h
  exact ⟨link, sql, hsql, hevents.trans (List.suffix_append _ _).isInfix⟩

theorem Severed.any_failure (h : Severed d events) : events.any Event.isFailure = true := by
  obtain ⟨link, sql, -, hevents⟩ := h
  exact List.any_eq_true.mpr ⟨_, hevents.subset List.mem_cons_self, rfl⟩

end Journal

namespace RunState

variable {σ : Type} {w w' w'' : RunState σ}

theorem events_of_append {new : List Event} (h : w'.journal = new ++ w.journal) :
    w.events w' = new.reverse := by
  rw [events, h, Journal.since, List.length_append, Nat.add_sub_cancel, List.take_left]

theorem events_append (h : w.journal <:+ w'.journal) (h' : w'.journal <:+ w''.journal) :
    w.events w'' = w.events w' ++ w'.events w'' := by
  obtain ⟨new, hnew⟩ := h
  obtain ⟨more, hmore⟩ := h'
  have hboth : w''.journal = (more ++ new) ++ w.journal := by
    rw [List.append_assoc, hnew, hmore]
  rw [events_of_append hnew.symm, events_of_append hmore.symm, events_of_append hboth,
    List.reverse_append]

end RunState

namespace Client

open Run Journal

variable {σ α : Type} {c : Client σ} {w w' w'' : RunState σ} {n m : Nat} {sent : List String}
  {sql : String}

/-- From one state to another the statements were sent, and the level is `n` now. -/
structure Came (w : RunState σ) (n : Nat) (sent : List String) (w' : RunState σ) : Prop where
  level : w'.session.level = n
  grows : w.journal <:+ w'.journal
  texts : Journal.texts (w.events w') = sent

/-- The same, and the session holds a master connection, unless it held none and has sent nothing.
-/
structure Running (w : RunState σ) (n : Nat) (sent : List String) (w' : RunState σ) : Prop
    extends Came w n sent w' where
  held : w'.session.master = none → w.session.master = none ∧ sent = []

/-- The session is at level 0 because a statement that begins or ends a level failed, or because
there was no connection to send it on. -/
structure Stopped (c : Client σ) (w w' : RunState σ) : Prop where
  level : w'.session.level = 0
  grows : w.journal <:+ w'.journal
  severed : Severed c.connection.dialect (w.events w') ∨
    (w.session.master = none ∧ Journal.texts (w.events w') = [])

/-- A session in a transaction holds a master connection. -/
def Holds (w : RunState σ) : Prop :=
  w.session.level ≠ 0 → w.session.master ≠ none

namespace Came

theorem refl : Came w w.session.level [] w := by
  have hnil : w.journal = [] ++ w.journal := rfl
  exact ⟨rfl, List.suffix_rfl, by rw [RunState.events_of_append hnil]; rfl⟩

theorem more (h : Came w n sent w') (new : List Event) (hlevel : w''.session.level = m)
    (hj : w''.journal = new ++ w'.journal) :
    Came w m (sent ++ Journal.texts new.reverse) w'' := by
  have hgrows : w'.journal <:+ w''.journal := ⟨new, hj.symm⟩
  refine ⟨hlevel, h.grows.trans hgrows, ?_⟩
  rw [RunState.events_append h.grows hgrows, texts_append, h.texts, RunState.events_of_append hj]

theorem silent {new : List Event} (h : Came w n sent w') (hlevel : w''.session.level = m)
    (hj : w''.journal = new ++ w'.journal) (hnew : ∀ e ∈ new, e.IsSilent) : Came w m sent w'' := by
  have hmore := h.more new hlevel hj
  rwa [texts_of_silent fun e he => hnew e (List.mem_reverse.mp he), List.append_nil] at hmore

theorem same (h : Came w n sent w') (hlevel : w''.session.level = m)
    (hj : w''.journal = w'.journal) : Came w m sent w'' :=
  h.silent hlevel (hj.trans (List.nil_append _).symm) nofun

theorem of_quiet (h : Came w n sent w') (hq : Quiet w' w'') : Came w n sent w'' := by
  obtain ⟨new, hj, hnew⟩ := hq.silent
  exact h.silent (by rw [hq.session]; exact h.level) hj hnew

end Came

namespace Running

theorem start : Running w w.session.level [] w :=
  ⟨.refl, fun h => ⟨h, rfl⟩⟩

theorem of_quiet (h : Running w n sent w') (hq : Quiet w' w'') : Running w n sent w'' :=
  ⟨h.toCame.of_quiet hq, by rw [hq.session]; exact h.held⟩

/-- Once a statement was sent, the session holds a master connection. -/
theorem master (h : Running w n sent w') (hsent : sent ≠ []) : w'.session.master ≠ none :=
  fun hnone => hsent (h.held hnone).2

end Running

theorem Stopped.of_quiet (h : Stopped c w w') (hq : Quiet w' w'') : Stopped c w w'' := by
  obtain ⟨new, hj, hnew⟩ := hq.silent
  have hgrows : w'.journal <:+ w''.journal := ⟨new, hj.symm⟩
  have hevents := RunState.events_append h.grows hgrows
  refine ⟨by rw [hq.session]; exact h.level, h.grows.trans hgrows, h.severed.imp ?_ fun hs => ?_⟩
  · rw [hevents]
    exact Severed.append_right
  · refine ⟨hs.1, ?_⟩
    rw [hevents, texts_append, hs.2, RunState.events_of_append hj]
    exact texts_of_silent fun e he => hnew e (List.mem_reverse.mp he)

theorem running_stable : Stable (Running w n sent : RunState σ → Prop) :=
  fun _ _ hq h => h.of_quiet hq

theorem modifySession_running {I J : RunState σ → Prop} {f : Session → Session}
    (hmaster : ∀ s, (f s).master = s.master) (hlevel : ∀ s, s.level = n → (f s).level = m) :
    Meets I J (Running w n sent) (Run.modifySession f) fun _ => Running w m sent := by
  refine .modify fun w' h => ⟨h.toCame.same (hlevel _ h.level) rfl, ?_⟩
  rw [hmaster]
  exact h.held

/-! ## Single statements -/

/-- A master connection is held, or none can be opened, and nothing was sent. -/
theorem mainLink_running :
    Meets (fun w' => Running w n [] w' ∧ w.session.master = none) (fun _ => True)
      (Running w n sent) c.mainLink
      fun link w' => Running w n sent w' ∧ w'.session.master = some link := by
  refine Meets.session.bind fun s => ?_
  cases hmaster : s.master with
  | some link =>
    refine .pure ?_
    rintro w' ⟨h, rfl⟩
    exact ⟨h, hmaster⟩
  | none =>
    refine Meets.of_each ?_
    rintro w' ⟨h, rfl⟩
    obtain ⟨hnone, rfl⟩ := h.held hmaster
    refine Meets.bind ((openMain_took (w := w') 0).mono (fun _ h => h ▸ .refl) (fun _ _ h => h)
      (fun _ hq => ⟨h.of_quiet hq, hnone⟩) fun _ _ => True.intro) fun link => ?_
    refine Meets.bind (R := fun _ w'' => Running w n [] w'' ∧ w''.session.master = some link)
      (.modify fun w'' htook => ?_) fun _ => .pure fun _ h => h
    have htook : Took c.connection.mains w' link w'' := htook
    obtain ⟨new, hj, hnew⟩ := htook.journal
    have hlevel : w''.session.level = n := by rw [htook.session]; exact h.level
    exact ⟨⟨h.toCame.silent hlevel hj hnew, nofun⟩, rfl⟩

/-- A statement by which levels begin and end is sent, or all ends with it. -/
theorem control_running (hsql : c.connection.dialect.Controls sql) :
    Meets (Stopped c w) (fun _ => True) (Running w n sent) (c.control sql)
      fun _ => Running w n (sent ++ [sql]) := by
  refine mainLink_running.attempt.bind fun r => ?_
  cases r with
  | error e =>
    refine Meets.bind (R := fun _ => Stopped c w) (.modify ?_) fun _ => .fail fun _ h => h
    rintro w' ⟨h, hnone⟩
    exact ⟨rfl, h.grows, .inr ⟨hnone, h.texts⟩⟩
  | ok link =>
    -- The journal after the statement, by the way in which it ended.
    have hsent : ∀ {w' : RunState σ} (servers : σ) (ending : Ending), Running w n sent w' →
        Came w n (sent ++ [sql])
          { w' with servers, journal := .sent link sql [] ending :: w'.journal } :=
      fun servers ending h => h.toCame.more [.sent link sql [] ending] h.level rfl
    have hsend : Meets
        (fun w' => ∃ w₁, Running w n sent w₁ ∧ w'.session.master = some link ∧
          w'.journal = .sent link sql [] .failed :: w₁.journal) (fun _ => True)
        (fun w' => Running w n sent w' ∧ w'.session.master = some link)
        (Run.send link sql [] (c.backend.execute link sql []))
        fun _ => Running w n (sent ++ [sql]) := by
      rintro w' ⟨h, hmaster⟩
      unfold Run.send
      rcases c.backend.execute link sql [] w'.servers with ⟨a | e | _, servers⟩
      · exact ⟨hsent servers .done h, fun hnone => nomatch hmaster.symm.trans hnone⟩
      · exact ⟨w', h, hmaster, rfl⟩
      · trivial
    refine hsend.attempt.bind fun r => ?_
    cases r with
    | ok executed => exact .pure fun _ h => h
    | error e =>
      refine Meets.bind (R := fun _ => Stopped c w) ?_ fun _ => .fail fun _ h => h
      rintro w' ⟨w₁, h, hmaster, hj⟩
      obtain ⟨w'', hdiscard, hlevel, hj''⟩ : ∃ w'', discardMaster w' = (.done (), w'') ∧
          w''.session.level = 0 ∧ w''.journal = .discarded link :: w'.journal :=
        ⟨_, discardMaster_eq hmaster, rfl, rfl⟩
      have hnew : w''.journal = [.discarded link, .sent link sql [] .failed] ++ w₁.journal := by
        rw [hj'', hj]
        rfl
      rw [hdiscard]
      refine ⟨hlevel, h.grows.trans ⟨_, hnew.symm⟩, .inl ?_⟩
      rw [RunState.events_append h.grows ⟨_, hnew.symm⟩, RunState.events_of_append hnew]
      exact Severed.append_left ⟨link, sql, hsql, List.infix_rfl⟩

theorem controlAll_running : ∀ {sent : List String} (statements : List String),
    (∀ sql ∈ statements, c.connection.dialect.Controls sql) →
      Meets (Stopped c w) (fun _ => True) (Running w n sent) (c.controlAll statements)
        fun _ => Running w n (sent ++ statements)
  | sent, [], _ => .pure fun _ h => by rwa [List.append_nil]
  | sent, sql :: statements, h => by
    refine (control_running (h sql List.mem_cons_self)).bind fun _ => ?_
    rw [List.append_cons sent sql statements]
    exact controlAll_running statements fun sql hsql => h sql (List.mem_cons_of_mem _ hsql)

/-! ## Beginning a level -/

/-- The statements that begin a level inside `level`. -/
def opening (d : Dialect) (isolation : Option IsolationLevel) (level : Nat) : List String :=
  if level = 0 then (beginStatements d isolation).toOption.getD []
  else ["SAVEPOINT " ++ savepointName level]

/-- The statement that ends a level inside `level`. -/
def closing (level : Nat) (returned : Bool) : String :=
  if level = 0 then if returned then "COMMIT" else "ROLLBACK"
  else
    (if returned then "RELEASE SAVEPOINT " else "ROLLBACK TO SAVEPOINT ") ++ savepointName level

theorem opening_ne_nil {d : Dialect} {isolation : Option IsolationLevel} {level : Nat}
    (h : level = 0 → ∃ statements, beginStatements d isolation = .ok statements) :
    opening d isolation level ≠ [] := by
  unfold opening
  split
  · next hlevel =>
    obtain ⟨statements, hok⟩ := h hlevel
    rw [hok]
    exact List.ne_nil_of_mem (beginSql_mem hok)
  · exact List.cons_ne_nil _ _

/-- The statements of a level are sent, and it is open then; or nothing was sent. -/
theorem begin_came (isolation : Option IsolationLevel) :
    Meets (fun w' => Stopped c w w' ∨ Quiet w w') (fun _ => True) (fun w' => w' = w)
      (c.begin isolation) fun _ w' =>
        Came w (w.session.level + 1) (opening c.connection.dialect isolation w.session.level) w' ∧
          w'.session.master ≠ none ∧
          (w.session.level ≠ 0 → c.connection.supportsSavepoint = true) := by
  refine Meets.session_of (.ite (fun hlevel => ?_) fun hlevel => ?_)
  · refine Meets.bind (R := fun statements w' =>
      beginStatements c.connection.dialect isolation = .ok statements ∧ w' = w) ?_ fun statements =>
        .of_fact fun hok => ?_
    · refine .ofResult (fun statements hok w' hw => ⟨hok, hw⟩) ?_
      rintro _ rfl
      exact .inr .refl
    · refine Meets.of_imp (P := Running w w.session.level []) (by rintro _ rfl; exact .start) ?_
      refine (Meets.log running_stable _ _).bind fun _ => ?_
      have hcontrols : ∀ sql ∈ statements, c.connection.dialect.Controls sql :=
        fun sql hsql => .inl ⟨isolation, statements, hok, hsql⟩
      refine Meets.bind ((controlAll_running statements hcontrols).of_failed fun _ h => .inl h)
        fun _ => ?_
      have hne : opening c.connection.dialect isolation w.session.level ≠ [] :=
        opening_ne_nil fun _ => ⟨statements, hok⟩
      have hopening : opening c.connection.dialect isolation w.session.level = statements := by
        rw [opening, if_pos hlevel, hok]
        rfl
      rw [hopening] at hne ⊢
      refine Meets.imp (modifySession_running (fun _ => rfl) fun _ _ => ?_) fun _ w' h =>
        ⟨h.toCame, h.master hne, fun hne => absurd hlevel hne⟩
      rw [hlevel]
  · refine .ite (fun hsavepoint => ?_) fun _ => ?_
    · refine Meets.of_imp (P := Running w w.session.level []) (by rintro _ rfl; exact .start) ?_
      refine (Meets.log running_stable _ _).bind fun _ => ?_
      refine Meets.bind ((control_running (.inr ?_)).of_failed fun _ h => .inl h) fun _ => ?_
      · rw [Control.ofSql_savepoint]
        rfl
      · rw [opening, if_neg hlevel]
        exact Meets.imp (modifySession_running (fun _ => rfl) fun _ hn => congrArg Nat.succ hn)
          fun _ w' h => ⟨h.toCame, h.master (List.cons_ne_nil _ _), fun _ => hsavepoint⟩
    · refine Meets.of_imp (P := Quiet w) (by rintro _ rfl; exact .refl) ?_
      exact (Meets.log quiet_stable _ _).bind fun _ => .fail fun _ h => .inr h

/-! ## Ending a level -/

theorem leaveLevel_running {I J : RunState σ → Prop} :
    Meets I J (Running w (n + 1) sent) leaveLevel
      fun level w' => level = n ∧ Running w n sent w' := by
  refine Meets.bind (R := fun _ => Running w n sent) ?_ fun _ => Meets.session.bind fun s => ?_
  · exact modifySession_running (fun _ => rfl) fun _ hn => Nat.sub_eq_of_eq_add hn
  · refine .pure ?_
    rintro w' ⟨h, rfl⟩
    exact ⟨h.level, h⟩

section Ending

variable (hlevel : w.session.level = n + 1) (hmaster : w.session.master ≠ none)
  (hsavepoint : n ≠ 0 → c.connection.supportsSavepoint = true)
include hlevel hmaster hsavepoint

/-- The level ends with its statement, and a session that is still in a transaction holds its
connection. -/
theorem endLevel_came {message outermost unsupported : String} {text : Nat → String}
    (inner : Nat → String) (houtermost : c.connection.dialect.Controls outermost)
    (hinner : ∀ level, c.connection.dialect.Controls (inner level)) :
    Meets (Stopped c w) (fun _ => True) (fun w' => w' = w)
      (do
        let level ← leaveLevel
        if level = 0 then c.endOutermost message outermost
        else if c.connection.supportsSavepoint then
          Run.log .debug (text level)
          c.control (inner level)
        else Run.log .info unsupported)
      fun _ w' => Came w n [if n = 0 then outermost else inner n] w' ∧ Holds w' := by
  refine Meets.of_imp (P := Running w (n + 1) []) (by rintro _ rfl; exact hlevel ▸ .start) ?_
  refine leaveLevel_running.bind fun level => .of_fact ?_
  rintro rfl
  by_cases hzero : level = 0
  · subst hzero
    rw [if_pos rfl]
    refine (Meets.log running_stable _ _).bind fun _ => ?_
    refine Meets.bind (modifySession_running (fun _ => rfl) fun _ hn => hn) fun _ => ?_
    refine (control_running houtermost).bind fun _ w' h => ?_
    rw [release_eq h.level rfl]
    refine ⟨h.toCame.silent h.level rfl fun e he => ?_, fun hne => absurd h.level hne⟩
    obtain ⟨link, -, rfl⟩ := List.mem_map.mp he
    trivial
  · rw [if_neg hzero, if_pos (hsavepoint hzero)]
    refine (Meets.log running_stable _ _).bind fun _ => ?_
    refine (control_running (hinner level)).imp fun _ w' h => ?_
    rw [if_neg hzero]
    exact ⟨h.toCame, fun _ => h.master (List.cons_ne_nil _ _)⟩

theorem commit_came :
    Meets (Stopped c w) (fun _ => True) (fun w' => w' = w) c.commit
      fun _ w' => Came w n [closing n true] w' ∧ Holds w' := by
  refine Meets.session_of (.ite (fun _ => ?_) fun hactive => ?_)
  · refine endLevel_came hlevel hmaster hsavepoint
      (fun level => "RELEASE SAVEPOINT " ++ savepointName level) (.inr rfl) fun level => .inr ?_
    rw [Control.ofSql_release]
    rfl
  · exact absurd (isActive_iff.mpr (by omega)) hactive

theorem rollBack_came :
    Meets (Stopped c w) (fun _ => True) (fun w' => w' = w) c.rollBack
      fun _ w' => Came w n [closing n false] w' ∧ Holds w' := by
  refine Meets.session_of (.ite (fun _ => ?_) fun hactive => ?_)
  · refine endLevel_came hlevel hmaster hsavepoint
      (fun level => "ROLLBACK TO SAVEPOINT " ++ savepointName level) (.inr rfl) fun level => .inr ?_
    rw [Control.ofSql_rollBackTo]
    rfl
  · exact absurd (isActive_iff.mpr (by omega)) hactive

end Ending

/-! ## A level of its own for a step -/

/-- What is left to do when the step inside a level has ended. -/
def finish (c : Client σ) (level : Nat) : Result α → Run σ α
  | .ok a => do
    if ← isAtLevel level then c.commit
    return a
  | .error e => do
    c.rollBackLevel level
    Run.fail e

/-- A level that does not begin. -/
theorem transaction_refused {isolation : Option IsolationLevel} {x : Run σ α} {e : Error}
    (hbegin : c.begin isolation w = (.failed e, w')) :
    c.transaction isolation x w = (.failed e, w') := by
  change Run.bind (c.begin isolation) _ w = _
  rw [Run.bind, hbegin]

/-- A level that has begun, and in which the step has ended. -/
theorem transaction_ended {isolation : Option IsolationLevel} {x : Run σ α} {r : Result α}
    (hbegin : c.begin isolation w = (.done (), w')) (hx : x w' = (.ofResult r, w'')) :
    c.transaction isolation x w = c.finish w'.session.level r w'' := by
  have hattempt : x.attempt w' = (.done r, w'') := by
    rw [Run.attempt, hx]
    cases r <;> rfl
  change Run.bind (c.begin isolation) (fun _ => Run.bind Run.session fun s =>
    Run.bind x.attempt fun r => _) w = _
  simp only [Run.bind, hbegin, Run.session, hattempt]
  cases r <;> rfl

/-- A call that is not cancelled: the level does not begin, or the step inside it ends. -/
theorem transaction_cases {isolation : Option IsolationLevel} {x : Run σ α}
    (hreturned : (c.transaction isolation x w).1.isCancelled = false) :
    (∃ e w', c.begin isolation w = (.failed e, w')) ∨
      ∃ w' r w'', c.begin isolation w = (.done (), w') ∧ x w' = (.ofResult r, w'') := by
  change (Run.bind (c.begin isolation) (fun _ => Run.bind Run.session fun s =>
    Run.bind x.attempt fun r => _) w).1.isCancelled = false at hreturned
  rcases hbegin : c.begin isolation w with ⟨_ | e | _, w'⟩
  · rcases hx : x w' with ⟨a | e | _, w''⟩
    · exact .inr ⟨w', .ok a, w'', rfl, hx⟩
    · exact .inr ⟨w', .error e, w'', rfl, hx⟩
    · simp [Run.bind, hbegin, Run.session, Run.attempt, hx, Outcome.isCancelled] at hreturned
  · exact .inl ⟨e, w', rfl⟩
  · simp [Run.bind, hbegin, Outcome.isCancelled] at hreturned

theorem isAtLevel_eq (level : Nat) :
    isAtLevel level w = (.done (w.session.isActive && w.session.level == level), w) :=
  rfl

/-- Nothing is done unless the level is the innermost one. -/
theorem finish_away {level : Nat} (r : Result α)
    (h : w.session.isActive = false ∨ w.session.level ≠ level) :
    c.finish level r w = (.ofResult r, w) := by
  have hat : (w.session.isActive && w.session.level == level) = false := by
    rcases h with h | h <;> simp [h]
  cases r with
  | ok a => simp only [finish, Bind.bind, Run.bind, isAtLevel_eq, hat]; rfl
  | error e => simp only [finish, rollBackLevel, Bind.bind, Run.bind, isAtLevel_eq, hat]; rfl

section Innermost

variable (hlevel : w.session.level = n + 1) (hmaster : w.session.master ≠ none)
  (hsavepoint : n ≠ 0 → c.connection.supportsSavepoint = true)
include hlevel hmaster hsavepoint

/-- A level is rolled back, or the session is left without a transaction; nothing is passed on. -/
theorem rollBackLevel_came :
    Meets (fun _ => False) (fun _ => True) (fun w' => w' = w) (c.rollBackLevel (n + 1))
      fun _ w' => (Came w n [closing n false] w' ∧ Holds w') ∨ Stopped c w w' := by
  have hat : Meets (fun _ => False) (fun _ => True) (fun w' => w' = w) (isAtLevel (n + 1))
      fun atLevel w' => atLevel = true ∧ w' = w := by
    rintro _ rfl
    exact ⟨by simp [Session.isActive, hlevel], rfl⟩
  refine hat.bind fun atLevel => .of_fact ?_
  rintro rfl
  refine (rollBack_came hlevel hmaster hsavepoint).attempt.bind fun r => ?_
  cases r with
  | ok _ => exact .pure fun _ h => .inl h
  | error e =>
    have hstable : Stable (Stopped c w) := fun _ _ hq h => h.of_quiet hq
    exact (Meets.log hstable _ _).imp fun _ _ h => .inr h

/-- The level is closed, and what the step has ended in is passed on; or the session is left without
a transaction, and a failure is passed on, that of the step if it has failed. -/
theorem finish_came (r : Result α) (hreturned : (c.finish (n + 1) r w).1.isCancelled = false) :
    ((c.finish (n + 1) r w).1 = .ofResult r ∧
        Came w n [closing n r.isOk] (c.finish (n + 1) r w).2 ∧ Holds (c.finish (n + 1) r w).2) ∨
      (Stopped c w (c.finish (n + 1) r w).2 ∧ ∃ e, (c.finish (n + 1) r w).1 = .failed e ∧
        ∀ e', r = .error e' → e = e') := by
  cases r with
  | ok a =>
    have hcommit := commit_came hlevel hmaster hsavepoint w rfl
    have hat : (w.session.isActive && w.session.level == n + 1) = true := by
      simp [Session.isActive, hlevel]
    have hfinish : c.finish (n + 1) (.ok a) w = Run.bind c.commit (fun _ => Run.pure a) w := by
      simp only [finish, Bind.bind, Run.bind, isAtLevel_eq, hat]
      rfl
    rw [hfinish, Run.bind] at hreturned ⊢
    rcases hr : c.commit w with ⟨_ | e | _, w'⟩ <;> rw [hr] at hcommit hreturned
    · exact .inl ⟨rfl, hcommit⟩
    · exact .inr ⟨hcommit, e, rfl, nofun⟩
    · cases hreturned
  | error e =>
    have hrollBack := rollBackLevel_came hlevel hmaster hsavepoint w rfl
    have hfinish : c.finish (n + 1) (.error e : Result α) w
        = Run.bind (c.rollBackLevel (n + 1)) (fun _ => Run.fail e) w := rfl
    rw [hfinish, Run.bind] at hreturned ⊢
    rcases hr : c.rollBackLevel (n + 1) w with ⟨_ | e' | _, w'⟩ <;>
      rw [hr] at hrollBack hreturned
    · rcases hrollBack with hclosed | hstopped
      · exact .inl ⟨rfl, hclosed⟩
      · exact .inr ⟨hstopped, e, rfl, fun _ he => Except.error.inj he⟩
    · exact hrollBack.elim
    · cases hreturned

end Innermost

end Client

end QueryKit
