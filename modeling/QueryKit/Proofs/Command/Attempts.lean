import QueryKit.Proofs.Command.Sent
import QueryKit.Proofs.Command.Served
import QueryKit.Proofs.Connections.Accounts

/-!
# Attempts at a command

- `Client.Stops`: a failed attempt is final. `Client.followUp`: what comes after one that is not.
- `Client.attemptAt`: the attempts that there would be if none were a success or final, and
  `Client.LastAttempt`: the first of them that is.
- `Client.retrying_last`: the last attempt is the last one made, and its result is the result.
- `Command.runs_to_last`: what follows for commands: their results, the statements they send and the
  number of their attempts.
-/

namespace QueryKit

variable {σ α β : Type}

/-- The statements among events, with their values. -/
def Journal.statements (events : List Event) : List (String × List Value) :=
  events.filterMap fun e =>
    match e with
    | .sent _ sql values _ => some (sql, values)
    | _ => none

namespace Client

variable (c : Client σ) (rawSql : String) (x : Run σ α) (w : RunState σ)

/-- The failure of an attempt is final: there is no handler, the statement itself is at fault, the
ceiling is reached, or the handler says so, which in a transaction it also does by asking for a new
connection. -/
def Stops (active : Bool) (attempt : Nat) (e : Error) : Prop :=
  c.connection.retry = none ∨ e.isCompileError = true ∨
    (∃ ceiling, c.connection.config.maxRetryCeiling = some ceiling ∧ ceiling ≤ attempt) ∨
    ∃ handler, c.connection.retry = some handler ∧
      (handler.action attempt e = .no ∨ (handler.action attempt e = .reconnect ∧ active = true))

/-- What the handler wants between an attempt that failed and the next one. -/
def followUp (attempt : Nat) (e : Error) : Run σ Unit :=
  match c.connection.retry with
  | none => pure ()
  | some handler => do
    Run.sleep (handler.backoff attempt)
    match handler.action attempt e with
    | .no => pure ()
    | .retry =>
      Run.log .debug ("Retrying statement, attempt " ++ Nat.repr attempt ++ ": " ++ e.message)
    | .reconnect => c.reconnect attempt

/-- The state after so many attempts, each of which was followed up. -/
def resumed : Nat → RunState σ
  | 0 => w
  | n + 1 =>
    match x (resumed n) with
    | (.failed e, w') => (c.followUp (n + 1) (e.withStatement rawSql) w').2
    | (_, w') => w'

/-- An attempt, counted from 1. -/
def attemptAt (i : Nat) : Outcome α × RunState σ :=
  x (c.resumed rawSql x w (i - 1))

/-- An attempt fails without being final, and its follow-up succeeds. -/
def GoesOn (i : Nat) : Prop :=
  ∃ e w', c.attemptAt rawSql x w i = (.failed e, w') ∧
    ¬ c.Stops w.session.isActive i (e.withStatement rawSql) ∧
    (c.followUp i (e.withStatement rawSql) w').1 = .done ()

/-- An attempt ends with a result: it is a success, or its failure is final. -/
def Concludes (i : Nat) (result : Result α) : Prop :=
  (∃ a, (c.attemptAt rawSql x w i).1 = .done a ∧ result = .ok a) ∨
    ∃ e, (c.attemptAt rawSql x w i).1 = .failed e ∧
      c.Stops w.session.isActive i (e.withStatement rawSql) ∧
      result = .error (e.withStatement rawSql)

/-- The number of the first attempt that is a success or final, and its result. -/
structure LastAttempt (k : Nat) (result : Result α) : Prop where
  pos : 0 < k
  earlier : ∀ i, 0 < i → i < k → c.GoesOn rawSql x w i
  last : c.Concludes rawSql x w k result

variable {c rawSql x w}

/-! ## The decision after a failure -/

theorem retryAction_of_stops {active : Bool} {attempt : Nat} {e : Error}
    (h : c.Stops active attempt e) : ∃ pause, c.retryAction active e attempt = (.no, pause) := by
  unfold retryAction
  split
  · exact ⟨0, rfl⟩
  · next handler hretry =>
    by_cases hcompile : e.isCompileError = true
    · exact ⟨0, if_pos hcompile⟩
    · rw [if_neg hcompile]
      split
      · exact ⟨0, rfl⟩
      · next hceiling =>
        rcases h with hnone | hc | ⟨ceiling, hmax, hle⟩ | ⟨handler', hretry', haction⟩
        · cases hretry.symm.trans hnone
        · exact absurd hc hcompile
        · simp [hmax, hle] at hceiling
        · cases Option.some.inj (hretry.symm.trans hretry')
          rcases haction with hno | ⟨hreconnect, hactive⟩
          · simp [hno]
          · simp [hreconnect, hactive]

/-- A failure that is not final is followed up as the handler says. -/
theorem retryAction_of_not_stops {active : Bool} {attempt : Nat} {e : Error}
    (h : ¬ c.Stops active attempt e) : ∃ handler, c.connection.retry = some handler ∧
      handler.action attempt e ≠ .no ∧ (handler.action attempt e = .reconnect → active = false) ∧
      c.retryAction active e attempt = (handler.action attempt e, handler.backoff attempt) := by
  simp only [Stops, not_or, not_exists, not_and] at h
  obtain ⟨hsome, hcompile, hceiling, haction⟩ := h
  obtain ⟨handler, hretry⟩ := Option.ne_none_iff_exists'.mp hsome
  obtain ⟨hno, hreconnect⟩ := haction handler hretry
  rw [Bool.not_eq_true] at hcompile
  have hany : (c.connection.config.maxRetryCeiling.any fun ceiling =>
      decide (ceiling ≤ attempt)) = false := by
    cases hmax : c.connection.config.maxRetryCeiling with
    | none => rfl
    | some ceiling => simpa using hceiling ceiling hmax
  refine ⟨handler, hretry, hno, fun h => by simpa using hreconnect h, ?_⟩
  simp only [retryAction, hretry, hcompile, hany, Bool.false_eq_true, if_false]
  cases hact : handler.action attempt e with
  | no => rfl
  | retry => rfl
  | reconnect => simp [hreconnect hact]

/-! ## The loop -/

theorem retrying_done {patience attempt : Nat} {a : α} {w' : RunState σ} (h : x w = (.done a, w')) :
    c.retrying rawSql x (patience + 1) attempt w = (.done (.ok a, true), w') :=
  Run.bind_done (Run.attempt_done h)

theorem retrying_stops {patience attempt : Nat} {e : Error} {w' : RunState σ}
    (h : x w = (.failed e, w'))
    (hstops : c.Stops w'.session.isActive attempt (e.withStatement rawSql)) :
    c.retrying rawSql x (patience + 1) attempt w =
      (.done (.error (e.withStatement rawSql), false), w') := by
  obtain ⟨pause, hno⟩ := retryAction_of_stops hstops
  refine (Run.bind_done (Run.attempt_failed h)).trans ?_
  refine (Run.bind_done (x := Run.session) rfl).trans ?_
  simp only [hno]
  rfl

/-- One attempt that is followed up. -/
theorem retrying_goes_on {patience attempt : Nat} {e : Error} {w' w'' : RunState σ}
    (h : x w = (.failed e, w'))
    (hgoes : ¬ c.Stops w'.session.isActive attempt (e.withStatement rawSql))
    (hfollow : c.followUp attempt (e.withStatement rawSql) w' = (.done (), w'')) :
    c.retrying rawSql x (patience + 1) attempt w =
      c.retrying rawSql x patience (attempt + 1) w'' := by
  obtain ⟨handler, hretry, hno, -, haction⟩ := retryAction_of_not_stops hgoes
  refine (Run.bind_done (Run.attempt_failed h)).trans ?_
  refine (Run.bind_done (x := Run.session) rfl).trans ?_
  have hslept : ∀ {β : Type} (f : Unit → Run σ β), (Run.sleep (handler.backoff attempt) >>= f) w' =
      f () { w' with clock := w'.clock + handler.backoff attempt * 1000000 } :=
    fun _ => Run.bind_done rfl
  simp only [followUp, hretry] at hfollow
  rw [hslept] at hfollow
  cases hact : handler.action attempt (e.withStatement rawSql) with
  | no => exact absurd hact hno
  | retry =>
    rw [hact] at haction hfollow
    simp only [haction]
    rw [hslept]
    exact Run.bind_done hfollow
  | reconnect =>
    rw [hact] at haction hfollow
    simp only [haction]
    rw [hslept]
    exact Run.bind_done (Run.attempt_done hfollow)

theorem followUp_level (attempt : Nat) (e : Error) (w : RunState σ) :
    (c.followUp attempt e w).2.session.level = w.session.level := by
  let k : Permit := ⟨true, true, false, fun _ => True⟩
  have hwalks : c.Walks k (c.followUp attempt e) := by
    unfold followUp
    split
    · exact .pure ()
    · refine (Walks.quiet (.sleep _)).bind fun _ => ?_
      split
      · exact .pure ()
      · exact .log _ _
      · exact reconnect_walks rfl attempt
  exact Reach.level (hwalks w) rfl

section Loop

variable (hlevel : ∀ w, (x w).2.session.level = w.session.level)
include hlevel

theorem resumed_level (n : Nat) :
    (c.resumed rawSql x w n).session.level = w.session.level := by
  induction n with
  | zero => rfl
  | succ n ih =>
    have hx := hlevel (c.resumed rawSql x w n)
    unfold resumed
    rcases hr : x (c.resumed rawSql x w n) with ⟨a | e | _, w'⟩ <;> rw [hr] at hx
    · exact hx.trans ih
    · exact (followUp_level _ _ w').trans (hx.trans ih)
    · exact hx.trans ih

theorem attemptAt_active {i : Nat} {r : Outcome α} {w' : RunState σ}
    (h : c.attemptAt rawSql x w i = (r, w')) : w'.session.isActive = w.session.isActive := by
  have hx := (hlevel (c.resumed rawSql x w (i - 1))).trans (resumed_level hlevel _)
  unfold attemptAt at h
  rw [h] at hx
  simp only [Session.isActive, show w'.session.level = w.session.level from hx]

/-- As long as the attempts go on, the loop comes to the next one. -/
theorem retrying_resumed (patience n : Nat)
    (h : ∀ i, 0 < i → i < n + 1 → c.GoesOn rawSql x w i) :
    c.retrying rawSql x (n + patience) 1 w =
      c.retrying rawSql x patience (n + 1) (c.resumed rawSql x w n) := by
  induction n generalizing patience with
  | zero => rw [Nat.zero_add]; rfl
  | succ n ih =>
    have hn := ih (patience + 1) fun i hpos hi => h i hpos (by omega)
    rw [show n + 1 + patience = n + (patience + 1) by omega, hn]
    obtain ⟨e, w', hfailed, hgoes, hdone⟩ := h (n + 1) (by omega) (by omega)
    have hgoes' : ¬ c.Stops w'.session.isActive (n + 1) (e.withStatement rawSql) := by
      rwa [attemptAt_active hlevel hfailed]
    have hx : x (c.resumed rawSql x w n) = (.failed e, w') := hfailed
    have hnext : c.resumed rawSql x w (n + 1) =
        (c.followUp (n + 1) (e.withStatement rawSql) w').2 := by
      rw [resumed, hx]
    rw [hnext]
    exact retrying_goes_on hx hgoes' (Prod.ext hdone rfl)

/-- The last attempt is the last one made, and its result is the result. -/
theorem retrying_last {k patience : Nat} {result : Result α}
    (h : c.LastAttempt rawSql x w k result) (hk : k ≤ patience) :
    ∃ good, c.retrying rawSql x patience 1 w =
      (.done (result, good), (c.attemptAt rawSql x w k).2) := by
  obtain ⟨n, rfl⟩ : ∃ n, k = n + 1 := Nat.exists_eq_add_one.mpr h.pos
  obtain ⟨m, rfl⟩ : ∃ m, patience = n + (m + 1) := ⟨patience - (n + 1), by omega⟩
  rw [retrying_resumed hlevel (m + 1) n h.earlier]
  rcases h.last with ⟨a, hdone, rfl⟩ | ⟨e, hfailed, hstops, rfl⟩
  · exact ⟨true, retrying_done (Prod.ext hdone rfl)⟩
  · refine ⟨false, retrying_stops (Prod.ext hfailed rfl) ?_⟩
    rwa [attemptAt_active hlevel (Prod.ext hfailed rfl)]

end Loop

/-! ## What the attempts send -/

/-- A connection for a statement can be had now. -/
def connects (c : Client σ) (read : Bool) (w : RunState σ) : Bool :=
  match (c.linkFor read w).1 with
  | .done _ => true
  | _ => false

/-- How many of the first `k` attempts reach a server. -/
def reaching (c : Client σ) (read : Bool) (rawSql : String) (x : Run σ α) (w : RunState σ)
    (k : Nat) : Nat :=
  (List.range k).countP fun i => c.connects read (c.resumed rawSql x w i)

theorem statements_of_sends {x : Run σ α} (h : Run.Sends (fun _ _ => False) x) (w : RunState σ) :
    Journal.statements (x w).2.journal = Journal.statements w.journal := by
  obtain ⟨new, hj, hnew⟩ := h w
  have hnone : Journal.statements new = [] := by
    refine List.filterMap_eq_nil_iff.mpr fun e he => ?_
    have hsent := hnew e he
    cases e with
    | sent => exact hsent.elim
    | _ => rfl
  rw [hj, Journal.statements, List.filterMap_append]
  change Journal.statements new ++ _ = _
  rw [hnone]
  rfl

section Sent

variable {read : Bool} {call : Link → String → List Value → σ → Outcome α × σ} {p : Prepared}

theorem sendPrepared_level (w : RunState σ) :
    (c.sendPrepared read call p w).2.session.level = w.session.level :=
  let k : Permit := ⟨true, true, false, fun _ => True⟩
  Reach.level (k := k) (sendPrepared_walks call (fun _ => rfl) trivial w) rfl

theorem sendPrepared_statements (w : RunState σ) :
    Journal.statements (c.sendPrepared read call p w).2.journal =
      List.replicate (c.connects read w).toNat (p.sql, p.values) ++
        Journal.statements w.journal := by
  have hlink := statements_of_sends (linkFor_sends (c := c) read) w
  rcases hr : c.linkFor read w with ⟨link | e | _, w'⟩ <;> rw [hr] at hlink
  · have hsend : c.sendPrepared read call p w =
        Run.send link p.sql p.values (call link p.sql p.values) w' := Run.bind_done hr
    rw [hsend, connects, hr]
    change (p.sql, p.values) :: Journal.statements w'.journal = _
    rw [hlink]
    rfl
  · have hsend : c.sendPrepared read call p w = (.failed e, w') := Run.bind_failed hr
    rw [hsend, connects, hr]
    exact hlink
  · have hsend : c.sendPrepared read call p w = (.cancelled, w') := by
      change Run.bind (c.linkFor read) _ w = _
      rw [Run.bind, hr]
    rw [hsend, connects, hr]
    exact hlink

theorem followUp_sends {P : String → List Value → Prop} (attempt : Nat) (e : Error) :
    Run.Sends P (c.followUp attempt e) := by
  unfold followUp
  split
  · exact .pure ()
  · refine (Run.Sends.sleep _).bind fun _ => ?_
    split
    · exact .pure ()
    · exact .log _ _
    · exact reconnect_sends attempt

variable (rawSql w) in
/-- One more attempt. -/
theorem attemptAt_succ_statements (n : Nat)
    (h : Journal.statements (c.resumed rawSql (c.sendPrepared read call p) w n).journal =
      List.replicate (c.reaching read rawSql (c.sendPrepared read call p) w n)
        (p.sql, p.values) ++ Journal.statements w.journal) :
    Journal.statements (c.attemptAt rawSql (c.sendPrepared read call p) w (n + 1)).2.journal =
      List.replicate (c.reaching read rawSql (c.sendPrepared read call p) w (n + 1))
        (p.sql, p.values) ++ Journal.statements w.journal := by
  rw [attemptAt, Nat.add_sub_cancel, sendPrepared_statements, h, ← List.append_assoc,
    List.replicate_append_replicate, reaching, reaching, List.range_succ, List.countP_append,
    List.countP_singleton, Nat.add_comm]
  cases c.connects read (c.resumed rawSql (c.sendPrepared read call p) w n) <;> rfl

theorem resumed_statements (n : Nat) :
    Journal.statements (c.resumed rawSql (c.sendPrepared read call p) w n).journal =
      List.replicate (c.reaching read rawSql (c.sendPrepared read call p) w n)
        (p.sql, p.values) ++ Journal.statements w.journal := by
  induction n with
  | zero => rfl
  | succ n ih =>
    rw [← attemptAt_succ_statements rawSql w n ih, attemptAt, Nat.add_sub_cancel, resumed]
    rcases c.sendPrepared read call p (c.resumed rawSql (c.sendPrepared read call p) w n) with
      ⟨a | e | _, w'⟩
    · rfl
    · exact statements_of_sends (followUp_sends _ _) w'
    · rfl

/-- The attempts that reach a server send the same statement with the same values. -/
theorem attemptAt_statements {k : Nat} (hk : 0 < k) :
    Journal.statements (c.attemptAt rawSql (c.sendPrepared read call p) w k).2.journal =
      List.replicate (c.reaching read rawSql (c.sendPrepared read call p) w k)
        (p.sql, p.values) ++ Journal.statements w.journal := by
  obtain ⟨n, rfl⟩ : ∃ n, k = n + 1 := Nat.exists_eq_add_one.mpr hk
  exact attemptAt_succ_statements rawSql w n (resumed_statements n)

end Sent

/-! ## How many attempts there are -/

/-- No attempt goes on at the ceiling. -/
theorem LastAttempt.ceiling {k ceiling : Nat} {result : Result α}
    (h : c.LastAttempt rawSql x w k result)
    (hmax : c.connection.config.maxRetryCeiling = some ceiling) : k ≤ max 1 ceiling := by
  refine Nat.not_lt.mp fun hlt => ?_
  obtain ⟨e, w', -, hgoes, -⟩ := h.earlier (max 1 ceiling) (by omega) hlt
  exact hgoes (.inr (.inr (.inl ⟨ceiling, hmax, Nat.le_max_right 1 ceiling⟩)))

/-- Inside a transaction an attempt that goes on stays on its connection. -/
theorem GoesOn.retries {i : Nat} (h : c.GoesOn rawSql x w i) (hactive : w.session.isActive = true) :
    ∃ e handler, (c.attemptAt rawSql x w i).1 = .failed e ∧ c.connection.retry = some handler ∧
      handler.action i (e.withStatement rawSql) = .retry := by
  obtain ⟨e, w', hfailed, hgoes, -⟩ := h
  obtain ⟨handler, hretry, hno, hreconnect, -⟩ := retryAction_of_not_stops hgoes
  refine ⟨e, handler, by rw [hfailed], hretry, ?_⟩
  cases hact : handler.action i (e.withStatement rawSql) with
  | no => exact absurd hact hno
  | retry => rfl
  | reconnect => simp [hactive] at hreconnect; exact absurd hact hreconnect

theorem isCompileError_withStatement (sql : String) (e : Error) :
    (e.withStatement sql).isCompileError = e.isCompileError := by
  cases e with
  | database e =>
    simp only [Error.withStatement]
    split
    · split <;> rfl
    · rfl
  | integrityViolation e =>
    simp only [Error.withStatement]
    split <;> rfl
  | _ => rfl

/-- The attempts that are made if all fail: one in a transaction, and otherwise as many as the handler
allows and the ceiling does not forbid, but at least one. -/
def attemptsAllowed (c : Client σ) (active : Bool) (total : Nat) : Nat :=
  if active then 1
  else max 1 (match c.connection.config.maxRetryCeiling with
    | none => total
    | some ceiling => min total ceiling)

theorem stops_maxAttempts {active : Bool} {total sleep attempt : Nat} {e : Error}
    (hretry : c.connection.retry = some (.maxAttempts total sleep))
    (he : e.isCompileError = false) (hpos : 0 < attempt) :
    c.Stops active attempt e ↔ c.attemptsAllowed active total ≤ attempt := by
  have haction : (∃ handler, c.connection.retry = some handler ∧
      (handler.action attempt e = .no ∨ (handler.action attempt e = .reconnect ∧ active = true))) ↔
      total ≤ attempt ∨ active = true := by
    rw [hretry]
    by_cases hlt : attempt < total
    · simp [RetryHandler.maxAttempts, hlt, Nat.not_le.mpr hlt]
    · simp [RetryHandler.maxAttempts, hlt, Nat.not_lt.mp hlt]
  rw [Stops, haction, hretry, he, attemptsAllowed]
  cases active with
  | true => simp [Nat.succ_le_of_lt hpos]
  | false =>
    cases c.connection.config.maxRetryCeiling with
    | none =>
      simp
      omega
    | some ceiling =>
      simp
      omega

theorem maxAttempts_last {total sleep : Nat}
    (hretry : c.connection.retry = some (.maxAttempts total sleep))
    (hfails : ∀ i, 0 < i → i ≤ c.attemptsAllowed w.session.isActive total →
      ∃ e w', c.attemptAt rawSql x w i = (.failed e, w') ∧ e.isCompileError = false ∧
        (c.followUp i (e.withStatement rawSql) w').1 = .done ()) :
    ∃ e, c.LastAttempt rawSql x w (c.attemptsAllowed w.session.isActive total) (.error e) := by
  have hpos : 0 < c.attemptsAllowed w.session.isActive total := by
    unfold attemptsAllowed
    split <;> omega
  obtain ⟨e, w', hfailed, hcompile, -⟩ := hfails _ hpos (Nat.le_refl _)
  rw [← isCompileError_withStatement rawSql] at hcompile
  refine ⟨e.withStatement rawSql, hpos, fun i hi hlt => ?_, .inr ⟨e, by rw [hfailed], ?_, rfl⟩⟩
  · obtain ⟨e, w', hfailed, hcompile, hfollow⟩ := hfails i hi (Nat.le_of_lt hlt)
    rw [← isCompileError_withStatement rawSql] at hcompile
    refine ⟨e, w', hfailed, fun hstops => ?_, hfollow⟩
    exact absurd ((stops_maxAttempts hretry hcompile hi).mp hstops) (Nat.not_le.mpr hlt)
  · exact (stops_maxAttempts hretry hcompile hpos).mpr (Nat.le_refl _)

/-! ## Commands -/

theorem runCommand_last {cmd : Command} {p : Prepared}
    (hp : cmd.preparation c.connection = .ok p)
    {call : Link → String → List Value → σ → Outcome α × σ} {k : Nat} {result : Result α}
    (h : c.LastAttempt rawSql (c.sendPrepared (isReadStatement cmd.sql) call p) w k result)
    (hk : k ≤ c.patience) :
    ∃ cmd', c.runCommand cmd rawSql call w = (.done (result, cmd'),
      (c.attemptAt rawSql (c.sendPrepared (isReadStatement cmd.sql) call p) w k).2) := by
  obtain ⟨good, hrun⟩ := retrying_last sendPrepared_level h hk
  refine ⟨{ cmd with prepared := if good then some p else none }, ?_⟩
  unfold runCommand
  simp only [hp]
  exact Run.bind_done hrun

theorem release_done (force : Bool) (w : RunState σ) : ∃ w', c.release force w = (.done (), w') ∧
    Journal.statements w'.journal = Journal.statements w.journal := by
  refine ⟨_, Prod.ext ?_ rfl, statements_of_sends (release_sends force) w⟩
  by_cases h : (!w.session.isActive && (force || c.connection.config.autoRelease)) = true
  · simp only [Bool.and_eq_true, Bool.not_eq_true'] at h
    rw [release_eq (by simpa [Session.isActive] using h.1) h.2]
  · simp only [release, bind, Run.bind, Run.session, if_neg h]
    rfl

theorem settle_done (cmd : Command) (executed : Executed) (w : RunState σ) :
    ∃ w', c.settle cmd executed w = (.done (), w') ∧
      Journal.statements w'.journal = Journal.statements w.journal := by
  refine ⟨_, Prod.ext ?_ rfl, statements_of_sends (settle_sends cmd executed) w⟩
  let w₁ : RunState σ := { w with session :=
    { w.session with lastInsertId := executed.insertId.or w.session.lastInsertId } }
  cases htable : cmd.refreshTable with
  | none =>
    obtain ⟨w', h, -⟩ := release_done (c := c) false w₁
    simp only [settle, htable]
    exact congrArg Prod.fst h
  | some table =>
    obtain ⟨w', h, -⟩ := release_done (c := c) false
      { w₁ with schemas := w₁.schemas.refresh (c.bareTableName table) }
    simp only [settle, htable]
    exact congrArg Prod.fst h

/-- How a call ends whose last attempt is known: with the result of that attempt, after sending
nothing else than the statement of the command, once for each attempt that reached a server. -/
def RunsTo (c : Client σ) (cmd : Command) (p : Prepared) (x : Run σ α) (w : RunState σ) (k : Nat)
    (y : Run σ (Result β × Command)) (result : Result β) : Prop :=
  ∃ cmd' w', y w = (.done (result, cmd'), w') ∧
    Journal.statements w'.journal =
      List.replicate (c.reaching (isReadStatement cmd.sql) (cmd.rawSql c.connection) x
        (c.logQuery (cmd.rawSql c.connection) w).2 k) (p.sql, p.values) ++
        Journal.statements w.journal

section Calls

variable {cmd : Command} {p : Prepared} (hp : cmd.preparation c.connection = .ok p) {k : Nat}
  (hk : k ≤ c.patience)
include hp hk

/-- The last attempt at a command that is executed gives its result. -/
theorem execute_last (hsql : cmd.sql ≠ "") {result : Result Executed}
    (h : c.LastAttempt (cmd.rawSql c.connection)
      (c.sendPrepared (isReadStatement cmd.sql) c.backend.execute p)
      (c.logQuery (cmd.rawSql c.connection) w).2 k result) :
    c.RunsTo cmd p (c.sendPrepared (isReadStatement cmd.sql) c.backend.execute p) w k
      (c.execute cmd) (result.map Executed.affected) := by
  have hlogged := statements_of_sends (logQuery_sends (c := c) (cmd.rawSql c.connection)) w
  obtain ⟨w₁, hlog, -, -⟩ := logQuery_done (c := c) (cmd.rawSql c.connection) w
  rw [RunsTo, ← hlogged]
  rw [hlog] at h ⊢
  obtain ⟨cmd', hrun⟩ := runCommand_last hp h hk
  rw [← attemptAt_statements h.pos]
  cases result with
  | error e =>
    obtain ⟨w', hrelease, hsent⟩ := release_done (c := c) false _
    refine ⟨cmd', w', ?_, hsent⟩
    rw [execute, Run.bind_done hlog, if_neg hsql, Run.bind_done hrun]
    exact Run.bind_done hrelease
  | ok executed =>
    obtain ⟨w', hsettle, hsent⟩ := settle_done (c := c) cmd' executed _
    refine ⟨cmd', w', ?_, hsent⟩
    rw [execute, Run.bind_done hlog, if_neg hsql, Run.bind_done hrun]
    exact Run.bind_done hsettle

/-- The last attempt at a read that is neither cached nor shared gives its rows. -/
theorem fetchAs_last (hshare : cmd.share = false) (hcache : c.cacheOf cmd = none)
    {result : Rows} (method : String) (f : List Row → Result β)
    (h : c.LastAttempt (cmd.rawSql c.connection)
      (c.sendPrepared (isReadStatement cmd.sql) c.backend.fetch p)
      (c.logQuery (cmd.rawSql c.connection) w).2 k result) :
    c.RunsTo cmd p (c.sendPrepared (isReadStatement cmd.sql) c.backend.fetch p) w k
      (c.fetchAs method f cmd) (result.bind f) := by
  have hlogged := statements_of_sends (logQuery_sends (c := c) (cmd.rawSql c.connection)) w
  obtain ⟨w₁, hlog, -, -⟩ := logQuery_done (c := c) (cmd.rawSql c.connection) w
  rw [RunsTo, ← hlogged]
  rw [hlog] at h ⊢
  obtain ⟨cmd', hrun⟩ := runCommand_last hp h hk
  rw [← attemptAt_statements h.pos]
  obtain ⟨w', hrelease, hsent⟩ := release_done (c := c) false _
  refine ⟨cmd', w', ?_, hsent⟩
  have hrows : c.fetchRows cmd method w = (.done (result, cmd'), w') := by
    simp only [fetchRows, hshare, Bool.false_eq_true, if_false, fetchCached, cachedRows, hcache]
    refine (Run.bind_done (x := pure none) rfl).trans ((Run.bind_done hlog).trans ?_)
    refine (Run.bind_done hrun).trans ((Run.bind_done hrelease).trans ?_)
    cases result with
    | error e => rfl
    | ok rows =>
      simp only [storeRows, hcache]
      rfl
  exact Run.bind_done hrows

end Calls

end Client

namespace Command

open Client

/-- What becomes of a command whose placeholders bind.

- An empty statement that is executed touches no connection. Any other command, unless its result is
  kept or shared, makes the attempts up to the first that is a success or final. Its result is the
  result, and every attempt that reaches a server sends the same text with the same values.
- There are no more attempts than the ceiling, but for the first. Inside a transaction an attempt that
  goes on is repeated on its connection, which stays the session's.
- With a handler that counts attempts, and failures only, the attempts are those that are allowed. -/
theorem runs_to_last (c : Client σ) {cmd : Command} {p : Prepared}
    (hp : cmd.preparation c.connection = .ok p) (w : RunState σ) :
    let raw := cmd.rawSql c.connection
    let read := isReadStatement cmd.sql
    let started := (c.logQuery raw w).2
    (cmd.sql = "" → ∃ w', c.execute cmd w = (.done (.ok 0, cmd), w') ∧ Run.Quiet w w') ∧
    (cmd.sql ≠ "" → ∀ k result, k ≤ c.patience →
      c.LastAttempt raw (c.sendPrepared read c.backend.execute p) started k result →
        c.RunsTo cmd p (c.sendPrepared read c.backend.execute p) w k (c.execute cmd)
          (result.map Executed.affected)) ∧
    (cmd.share = false → c.cacheOf cmd = none → ∀ k result, k ≤ c.patience →
      c.LastAttempt raw (c.sendPrepared read c.backend.fetch p) started k result →
        ∀ {β : Type} (method : String) (f : List Row → Result β),
          c.RunsTo cmd p (c.sendPrepared read c.backend.fetch p) w k (c.fetchAs method f cmd)
            (result.bind f)) ∧
    (∀ {α : Type} (call : Link → String → List Value → σ → Outcome α × σ) k (result : Result α),
      c.LastAttempt raw (c.sendPrepared read call p) started k result →
        (∀ ceiling, c.connection.config.maxRetryCeiling = some ceiling → k ≤ max 1 ceiling) ∧
        (w.session.isActive = true → ∀ i, 0 < i → i < k → ∃ e handler,
          (c.attemptAt raw (c.sendPrepared read call p) started i).1 = .failed e ∧
            c.connection.retry = some handler ∧
              handler.action i (e.withStatement raw) = .retry)) ∧
    (∀ link, w.session.isActive = true → w.session.master = some link →
      (c.execute cmd w).2.session.master = some link ∧
        ∀ {β : Type} (method : String) (f : List Row → Result β),
          (c.fetchAs method f cmd w).2.session.master = some link) ∧
    ∀ {α : Type} (call : Link → String → List Value → σ → Outcome α × σ) total sleep,
      c.connection.retry = some (.maxAttempts total sleep) →
        (∀ i, 0 < i → i ≤ c.attemptsAllowed w.session.isActive total → ∃ e w',
          c.attemptAt raw (c.sendPrepared read call p) started i = (.failed e, w') ∧
            e.isCompileError = false ∧ (c.followUp i (e.withStatement raw) w').1 = .done ()) →
          ∃ e, c.LastAttempt raw (c.sendPrepared read call p) started
            (c.attemptsAllowed w.session.isActive total) (.error e) := by
  intro raw read started
  have hsession : started.session = w.session := (logQuery_quiet raw w).session
  refine ⟨fun hsql => execute_empty hsql, fun hsql k result hk h => execute_last hp hk hsql h,
    fun hshare hcache k result hk h β method f => fetchAs_last hp hk hshare hcache method f h,
    fun call k result h => ⟨fun ceiling => h.ceiling, fun hactive i hpos hlt => ?_⟩,
    fun link hactive hmaster => ?_, fun call total sleep hretry hfails => ?_⟩
  · exact (h.earlier i hpos hlt).retries (by rw [hsession, hactive])
  · have hlevel : w.session.level ≠ 0 := by simpa [Session.isActive] using hactive
    refine ⟨(execute_walks cmd w).master rfl rfl hlevel hmaster, fun method f => ?_⟩
    exact (fetchAs_walks method f cmd w).master rfl rfl hlevel hmaster
  · rw [← hsession] at hfails ⊢
    exact maxAttempts_last hretry hfails

/-- A client that makes up to three attempts. -/
def persistent : Client Recorder :=
  { rehearsal with
    connection := { rehearsal.connection with retry := some (.maxAttempts 3 0) }
    patience := 3 }

/-- A session whose server fails every statement. Above level 0 it holds a connection. -/
def failing (level : Nat) (e : Error) : RunState Recorder :=
  { RunState.ofConnection persistent.connection fun _ =>
      { ScriptedServer.empty with failAlways := some e } with
    session := { Session.ofConnection persistent.connection with
      master := if level = 0 then none else some ⟨⟨.primary, "postgres://db"⟩, 0⟩
      level := level } }

def deletion : Command :=
  { empty with sql := "DELETE FROM t" }

/-- The server cannot take statements. -/
def refusal : Error :=
  .connectionUnavailable (.said "starting up")

theorem deletion_runs_to_last : ∃ e cmd' w',
    persistent.execute deletion (failing 0 refusal) = (.done (.error e, cmd'), w') ∧
      Journal.statements w'.journal = List.replicate 3 ("DELETE FROM t", []) := by
  have hp : deletion.preparation persistent.connection = .ok ⟨"DELETE FROM t", []⟩ := rfl
  obtain ⟨-, hexecute, -, -, -, hcounted⟩ :=
    runs_to_last persistent hp (failing 0 refusal)
  obtain ⟨e, hlast⟩ := hcounted persistent.backend.execute 3 0 rfl fun i hpos hle => by
    have hle : i ≤ 3 := hle
    obtain rfl | rfl | rfl : i = 1 ∨ i = 2 ∨ i = 3 := by omega
    all_goals exact ⟨_, _, rfl, rfl, rfl⟩
  obtain ⟨cmd', w', hrun, hsent⟩ := hexecute (by decide) 3 (.error e) (Nat.le_refl 3) hlast
  exact ⟨e, cmd', w', hrun, hsent⟩

/-- Not every command makes an attempt, and not always three are made that the handler would allow: an
empty statement makes none, and inside a transaction there is one. Nor is a statement all that the
failure of an attempt may get: it is told from others if it violates a constraint. -/
theorem attempts_fall_short :
    (∃ cmd' w', persistent.execute empty (failing 0 refusal) = (.done (.ok 0, cmd'), w') ∧
      Journal.statements w'.journal = []) ∧
    (∃ e cmd' w', persistent.execute deletion (failing 1 refusal) = (.done (.error e, cmd'), w') ∧
      Journal.statements w'.journal = [("DELETE FROM t", [])]) ∧
    ∃ cmd' w', rehearsal.execute deletion (failing 0 (.database ⟨"duplicate", some "23505", none⟩)) =
      (.done (.error
        (.integrityViolation ⟨"duplicate", some "23505", some "DELETE FROM t"⟩), cmd'), w') := by
  have hconverted : (Error.database ⟨"duplicate", some "23505", none⟩).withStatement "DELETE FROM t" =
      .integrityViolation ⟨"duplicate", some "23505", some "DELETE FROM t"⟩ := by decide
  rw [← hconverted]
  exact ⟨⟨_, _, rfl, rfl⟩, ⟨_, _, _, rfl, rfl⟩, _, _, rfl⟩

end Command

end QueryKit
