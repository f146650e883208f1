import QueryKit.Proofs.Connections.Walks

/-!
# Scripts over a session

- `Session.Call`: an operation of a session with its arguments. Each is made of the moves that its
  permit allows (`Call.walks`).
- `Session.Script`: what callers do with a session: any calls, in any order and nested in closures,
  with any decisions between them. `Script.transaction` is the operation of that name
  (`Script.run_transaction`).
- `Session.Visit`: a call with the state that a run reaches it in; `Script.visits` lists those of a
  run.
- `Session.Passes`: from visit to visit nothing happens to connections. A run passes through its
  visits (`Script.passed`); it is cancelled if and only if the last of them is.
-/

namespace QueryKit

/-- How a run goes on outside the session: everything may change but the session and what it has
done. Physical connections may have been opened meanwhile. -/
def RunState.meanwhile {σ : Type} (f : RunState σ → RunState σ) (w : RunState σ) : RunState σ :=
  { f w with
    journal := w.journal
    nextLink := max w.nextLink (f w).nextLink
    session := w.session }

/-- Whether the caller went away. -/
def Outcome.isCancelled {α : Type} : Outcome α → Bool
  | cancelled => true
  | _ => false

theorem Outcome.ending_eq_pending {α : Type} {o : Outcome α} :
    o.ending = .pending ↔ o.isCancelled = true := by
  cases o <;> simp [ending, isCancelled]

/-- The events that were added to a journal. -/
theorem Journal.mem_since {new j : Journal} {e : Event} :
    e ∈ Journal.since (new ++ j) j.length ↔ e ∈ new := by
  rw [Journal.since, List.length_append, Nat.add_sub_cancel, List.take_left, List.mem_reverse]

/-- A new session in a state, with nothing in the journal. -/
def RunState.opened {σ : Type} (c : Connection) (w : RunState σ) : RunState σ :=
  { w with journal := [], session := .ofConnection c }

/-- The state with reads switched to the master, or back. -/
def RunState.withReplicas {σ : Type} (enabled : Bool) (w : RunState σ) : RunState σ :=
  { w with session := { w.session with replicasEnabled := enabled } }

namespace Session

/-- An operation of a session with its arguments. -/
inductive Call : Type → Type 1
  | begin (isolation : Option IsolationLevel) : Call Unit
  | commit : Call Unit
  | rollBack : Call Unit
  | setIsolationLevel (isolation : IsolationLevel) : Call Unit
  | execute (cmd : Command) : Call (Result Nat × Command)
  /-- A read: the way the rows are read and what the caller makes of them. -/
  | fetch {β : Type} (method : String) (f : List Row → Result β) (cmd : Command) :
    Call (Result β × Command)
  | tableSchema (name : String) : Call (Option TableSchema)
  | release (force : Bool) : Call Unit
  | reconnect (attempt : Nat) : Call Unit
  | close : Call Unit

/-- What callers do with a session. -/
inductive Script (σ : Type) : Type → Type 1
  | done {α : Type} (a : α) : Script σ α
  | fail {α : Type} (e : Error) : Script σ α
  /-- Look at everything there is. -/
  | state : Script σ (RunState σ)
  | log (level : LogLevel) (text : String) : Script σ Unit
  /-- Wait while something happens outside the session. -/
  | meanwhile (f : RunState σ → RunState σ) : Script σ Unit
  | call {α : Type} (k : Call α) : Script σ α
  | bind {α β : Type} (p : Script σ α) (f : α → Script σ β) : Script σ β
  | attempt {α : Type} (p : Script σ α) : Script σ (Result α)
  | useMaster {α : Type} (p : Script σ α) : Script σ α

open Run Client

variable {σ α β : Type}

namespace Call

def run (c : Client σ) : {α : Type} → Call α → Run σ α
  | _, .begin isolation => c.begin isolation
  | _, .commit => c.commit
  | _, .rollBack => c.rollBack
  | _, .setIsolationLevel isolation => c.setIsolationLevel isolation
  | _, .execute cmd => c.execute cmd
  | _, .fetch method f cmd => c.fetchAs method f cmd
  | _, .tableSchema name => c.tableSchema name
  | _, .release force => c.release force
  | _, .reconnect attempt => c.reconnect attempt
  | _, .close => c.close

/-- The command that is run, if the call runs one. -/
def command? : {α : Type} → Call α → Option Command
  | _, .execute cmd => some cmd
  | _, .fetch _ _ cmd => some cmd
  | _, _ => none

def isReconnect : {α : Type} → Call α → Bool
  | _, .reconnect _ => true
  | _, _ => false

def isClose : {α : Type} → Call α → Bool
  | _, .close => true
  | _, _ => false

/-- What the call may do. -/
def permit (conn : Connection) : {α : Type} → Call α → Permit
  | _, .execute cmd => cmd.permit conn
  | _, .fetch _ _ cmd => cmd.permit conn
  | _, .tableSchema _ => .silent
  | _, .release _ => .silent
  | _, .reconnect _ => { Permit.silent with parts := true }
  | _, _ => .turning

theorem walks {c : Client σ} {α : Type} (k : Call α) :
    c.Walks (k.permit c.connection) (k.run c) := by
  cases k with
  | begin isolation => exact begin_walks isolation
  | commit => exact commit_walks
  | rollBack => exact rollBack_walks
  | setIsolationLevel isolation => exact setIsolationLevel_walks isolation
  | execute cmd => exact execute_walks cmd
  | fetch method f cmd => exact fetchAs_walks method f cmd
  | tableSchema name => exact tableSchema_walks name
  | release force => exact release_walks force
  | reconnect attempt => exact reconnect_walks rfl attempt
  | close => exact close_walks rfl rfl

end Call

/-- A call, and the state in which it is made. -/
structure Visit (σ : Type) where
  {α : Type}
  call : Call α
  /-- Whether the call is made inside a `useMaster`. -/
  mainOnly : Bool
  before : RunState σ

namespace Visit

/-- The state that the call leaves behind. -/
def after (c : Client σ) (v : Visit σ) : RunState σ :=
  (v.call.run c v.before).2

/-- How the call ends. -/
def ending (c : Client σ) (v : Visit σ) : Ending :=
  (v.call.run c v.before).1.ending

/-- What happened during the call, in its order. -/
def events (c : Client σ) (v : Visit σ) : List Event :=
  (v.after c).journal.since v.before.journal.length

theorem reach (c : Client σ) (v : Visit σ) :
    c.Reach (v.call.permit c.connection) v.before (v.after c) :=
  v.call.walks v.before

theorem ending_eq_pending {c : Client σ} {v : Visit σ} :
    v.ending c = .pending ↔ (v.call.run c v.before).1.isCancelled = true :=
  Outcome.ending_eq_pending

/-- What holds after a call that returns. -/
theorem of_returned {c : Client σ} {v : Visit σ} {I J : RunState σ → Prop}
    (h : Meets I J (fun w => w = v.before) (v.call.run c) fun _ => I)
    (hending : v.ending c ≠ .pending) : I (v.after c) := by
  have hends := h v.before rfl
  unfold ending at hending
  unfold after
  rcases hr : v.call.run c v.before with ⟨a | e | _, w'⟩ <;> rw [hr] at hends hending
  · exact hends
  · exact hends
  · exact absurd rfl hending

/-- What holds after a call that is cancelled. -/
theorem of_cancelled {c : Client σ} {v : Visit σ} {I J : RunState σ → Prop}
    {Q : v.α → RunState σ → Prop} (h : Meets I J (fun w => w = v.before) (v.call.run c) Q)
    (hending : v.ending c = .pending) : J (v.after c) := by
  have hends := h v.before rfl
  unfold ending at hending
  unfold after
  rcases hr : v.call.run c v.before with ⟨a | e | _, w'⟩ <;> rw [hr] at hends hending
  · cases hending
  · cases hending
  · exact hends

theorem mem_events {c : Client σ} {v : Visit σ} {new : List Event}
    (h : (v.after c).journal = new ++ v.before.journal) {e : Event} :
    e ∈ v.events c ↔ e ∈ new := by
  rw [events, h, Journal.mem_since]

end Visit

namespace Script

def run (c : Client σ) : {α : Type} → Script σ α → Run σ α
  | _, .done a => Run.pure a
  | _, .fail e => Run.fail e
  | _, .state => Run.state
  | _, .log level text => Run.log level text
  | _, .meanwhile f => Run.modify (RunState.meanwhile f)
  | _, .call k => k.run c
  | _, .bind p f => run c p >>= fun a => run c (f a)
  | _, .attempt p => (run c p).attempt
  | _, .useMaster p => Client.useMaster (run c p)

/-- What follows if a step ends in a result. -/
def ifDone {γ : Type 1} (f : α → RunState σ → List γ) : Outcome α × RunState σ → List γ
  | (.done a, w) => f a w
  | _ => []

/-- The calls that a run makes, in their order. -/
def visits (c : Client σ) : {α : Type} → Script σ α → Bool → RunState σ → List (Visit σ)
  | _, .call k, mainOnly, w => [⟨k, mainOnly, w⟩]
  | _, .bind p f, mainOnly, w =>
    visits c p mainOnly w ++ ifDone (fun a w' => visits c (f a) mainOnly w') (run c p w)
  | _, .attempt p, mainOnly, w => visits c p mainOnly w
  | _, .useMaster p, _, w => visits c p true (w.withReplicas false)
  | _, _, _, _ => []

/-! ## Closures in a transaction -/

/-- Whether a transaction is open at a level. -/
def isAtLevel (level : Nat) : Script σ Bool :=
  .bind .state fun w => .done (w.session.isActive && w.session.level == level)

/-- Roll back a level if it is the innermost one. -/
def rollBackLevel (level : Nat) : Script σ Unit :=
  .bind (isAtLevel level) fun atLevel =>
    if atLevel then
      .bind (.attempt (.call .rollBack)) fun r =>
        match r with
        | .error e => .log .error e.message
        | .ok _ => .done ()
    else .done ()

/-- A script inside a level of its own. -/
def transaction (isolation : Option IsolationLevel) (p : Script σ α) : Script σ α :=
  .bind (.call (.begin isolation)) fun _ => .bind .state fun w => .bind (.attempt p) fun r =>
    match r with
    | .ok a =>
      .bind (isAtLevel w.session.level) fun atLevel =>
        if atLevel then .bind (.call .commit) fun _ => .done a else .done a
    | .error e => .bind (rollBackLevel w.session.level) fun _ => .fail e

theorem run_rollBackLevel (c : Client σ) (level : Nat) :
    (rollBackLevel level : Script σ Unit).run c = c.rollBackLevel level := by
  refine bind_congr fun atLevel => ?_
  cases atLevel with
  | false => rfl
  | true =>
    refine bind_congr fun r => ?_
    cases r with
    | ok _ => rfl
    | error e => rfl

theorem run_transaction (c : Client σ) (isolation : Option IsolationLevel) (p : Script σ α) :
    (p.transaction isolation).run c = c.transaction isolation (p.run c) := by
  refine bind_congr fun _ => ?_
  change (Run.state >>= fun w => _) = (Run.session >>= fun s => _)
  have hread : ∀ f : Session → Run σ α,
      (Run.state >>= fun w : RunState σ => f w.session) = (Run.session >>= f) := fun f => rfl
  rw [← hread]
  refine bind_congr fun w => bind_congr fun r => ?_
  cases r with
  | ok a =>
    refine bind_congr fun atLevel => ?_
    cases atLevel with
    | false => rfl
    | true => rfl
  | error e =>
    change (run c (rollBackLevel w.session.level) >>= fun _ => _) = _
    rw [run_rollBackLevel]
    rfl

end Script

/-! ## From visit to visit -/

/-- From one state to the other messages are logged, replicas are switched on or off, and things
change outside the session. -/
structure Aside (w w' : RunState σ) : Prop where
  session : ∃ enabled, w'.session = { w.session with replicasEnabled := enabled }
  nextLink : w.nextLink ≤ w'.nextLink
  journal : ∃ logs, w'.journal = logs ++ w.journal ∧
    ∀ e ∈ logs, ∃ level text, e = .logged level text

namespace Aside

variable {w w' w'' : RunState σ}

theorem refl : Aside w w :=
  ⟨⟨_, rfl⟩, Nat.le_refl _, [], rfl, nofun⟩

theorem trans (h : Aside w w') (h' : Aside w' w'') : Aside w w'' := by
  obtain ⟨enabled, hs⟩ := h.session
  obtain ⟨enabled', hs'⟩ := h'.session
  obtain ⟨logs, hj, hlogs⟩ := h.journal
  obtain ⟨logs', hj', hlogs'⟩ := h'.journal
  refine ⟨⟨enabled', by rw [hs', hs]⟩, Nat.le_trans h.nextLink h'.nextLink, logs' ++ logs, ?_, ?_⟩
  · rw [hj', hj, List.append_assoc]
  · intro e he
    rcases List.mem_append.mp he with he | he
    · exact hlogs' e he
    · exact hlogs e he

theorem withReplicas (enabled : Bool) : Aside w (w.withReplicas enabled) :=
  ⟨⟨enabled, rfl⟩, Nat.le_refl _, [], rfl, nofun⟩

theorem logged (level : LogLevel) (text : String) :
    Aside w { w with journal := .logged level text :: w.journal } :=
  ⟨⟨_, rfl⟩, Nat.le_refl _, [_], rfl, fun _ he => ⟨level, text, List.mem_singleton.mp he⟩⟩

theorem meanwhile (f : RunState σ → RunState σ) : Aside w (w.meanwhile f) :=
  ⟨⟨_, rfl⟩, Nat.le_max_left _ _, [], rfl, nofun⟩

theorem master (h : Aside w w') : w'.session.master = w.session.master := by
  obtain ⟨_, hs⟩ := h.session
  rw [hs]

theorem replica (h : Aside w w') : w'.session.replica = w.session.replica := by
  obtain ⟨_, hs⟩ := h.session
  rw [hs]

theorem level (h : Aside w w') : w'.session.level = w.session.level := by
  obtain ⟨_, hs⟩ := h.session
  rw [hs]

end Aside

/-- A way from one state to another through calls. Replicas are switched as `enabled` says, but for
the calls inside a `useMaster`. The way is cut if the last call is cancelled. -/
inductive Passes (c : Client σ) (enabled : Bool) :
    RunState σ → List (Visit σ) → Bool → RunState σ → Prop
  | rest {w w' : RunState σ} : Aside w w' → Passes c enabled w [] false w'
  | stop {w : RunState σ} {v : Visit σ} : Aside w v.before →
    v.before.session.replicasEnabled = (enabled && !v.mainOnly) → v.ending c = .pending →
      Passes c enabled w [v] true (v.after c)
  | step {w w' : RunState σ} {v : Visit σ} {vs : List (Visit σ)} {cut : Bool} : Aside w v.before →
    v.before.session.replicasEnabled = (enabled && !v.mainOnly) → v.ending c ≠ .pending →
      Passes c enabled (v.after c) vs cut w' → Passes c enabled w (v :: vs) cut w'

namespace Passes

variable {c : Client σ} {enabled cut : Bool} {w w' w'' : RunState σ} {vs vs' : List (Visit σ)}

theorem aside_left (h : Passes c enabled w' vs cut w'') (ha : Aside w w') :
    Passes c enabled w vs cut w'' := by
  cases h with
  | rest h => exact .rest (ha.trans h)
  | stop h henabled hpending => exact .stop (ha.trans h) henabled hpending
  | step h henabled hpending hrest => exact .step (ha.trans h) henabled hpending hrest

theorem append (h : Passes c enabled w vs false w') (h' : Passes c enabled w' vs' cut w'') :
    Passes c enabled w (vs ++ vs') cut w'' := by
  generalize hcut : false = cut₀ at h
  induction h with
  | rest ha => exact h'.aside_left ha
  | stop => cases hcut
  | step ha henabled hpending _ ih => exact .step ha henabled hpending (ih h' hcut)

theorem aside_right (h : Passes c enabled w vs false w') (ha : Aside w' w'') :
    Passes c enabled w vs false w'' := by
  have happend := h.append (.rest ha)
  rwa [List.append_nil] at happend

/-- A visit parts a way: it is reached through those before it, and the rest starts where its call has
led to. -/
theorem visit {earlier later : List (Visit σ)} {v : Visit σ}
    (h : Passes c enabled w (earlier ++ v :: later) cut w') :
    Passes c enabled w earlier false v.before ∧
      v.before.session.replicasEnabled = (enabled && !v.mainOnly) ∧
      (later = [] ∨ Passes c enabled (v.after c) later cut w') := by
  induction earlier generalizing w with
  | nil =>
    cases h with
    | stop ha henabled => exact ⟨.rest ha, henabled, .inl rfl⟩
    | step ha henabled _ hrest => exact ⟨.rest ha, henabled, .inr hrest⟩
  | cons u earlier ih =>
    generalize hvs : u :: earlier ++ v :: later = vs at h
    cases h with
    | rest => cases hvs
    | stop =>
      -- No visit follows a cut.
      have hlength := congrArg List.length hvs
      simp at hlength
    | step ha henabled hpending hrest =>
      cases hvs
      obtain ⟨hbefore, hafter⟩ := ih hrest
      exact ⟨.step ha henabled hpending hbefore, hafter⟩

/-- What calls keep, and what happens between them, holds at the end of a way. On a way that is not
cut no call is cancelled. -/
theorem keeps {I : RunState σ → Prop} (h : Passes c enabled w vs cut w')
    (haside : ∀ w w', Aside w w' → I w → I w')
    (hvisit : ∀ v ∈ vs, (v.ending c = .pending → cut = true) → I v.before → I (v.after c))
    (hw : I w) : I w' := by
  induction h with
  | rest ha => exact haside _ _ ha hw
  | stop ha _ _ => exact hvisit _ List.mem_cons_self (fun _ => rfl) (haside _ _ ha hw)
  | step ha _ hpending _ ih =>
    refine ih (fun v hv => hvisit v (List.mem_cons_of_mem _ hv)) ?_
    exact hvisit _ List.mem_cons_self (fun h => absurd h hpending) (haside _ _ ha hw)

/-- A way is cut at its last visit, which leads to its end. -/
theorem cut_iff (h : Passes c enabled w vs cut w') :
    (cut = true ↔ ∃ v ∈ vs, v.ending c = .pending) ∧
      ∀ earlier v later, vs = earlier ++ v :: later → v.ending c = .pending →
        later = [] ∧ v.after c = w' := by
  induction h with
  | rest => exact ⟨by simp, fun earlier v later h => by simp at h⟩
  | @stop w v ha henabled hpending =>
    refine ⟨by simpa using hpending, fun earlier u later h _ => ?_⟩
    cases earlier with
    | nil =>
      cases h
      exact ⟨rfl, rfl⟩
    | cons => simp at h
  | @step w w' v vs cut ha henabled hpending hrest ih =>
    refine ⟨by simpa [hpending] using ih.1, fun earlier u later h hu => ?_⟩
    cases earlier with
    | nil =>
      cases h
      exact absurd hu hpending
    | cons x earlier =>
      cases h
      exact ih.2 earlier u later rfl hu

end Passes

/-- The step leaves replicas switched as they were, unless it is cancelled. -/
theorem useMaster_eq (x : Run σ α) (w : RunState σ) :
    Client.useMaster x w = match x (w.withReplicas false) with
      | (.done a, w') => (.done a, w'.withReplicas w.session.replicasEnabled)
      | (.failed e, w') => (.failed e, w'.withReplicas w.session.replicasEnabled)
      | (.cancelled, w') => (.cancelled, w') := by
  change Run.bind x.attempt _ (w.withReplicas false) = _
  unfold Run.bind Run.attempt
  rcases x (w.withReplicas false) with ⟨a | e | _, w'⟩ <;> rfl

/-- A run has passed through calls. The way is cut if the run was cancelled; otherwise replicas are
switched as they were. -/
structure Passed (c : Client σ) (enabled : Bool) (w : RunState σ) (vs : List (Visit σ))
    (r : Outcome α × RunState σ) : Prop where
  passes : Passes c enabled w vs r.1.isCancelled r.2
  replicas : r.1.isCancelled = false →
    r.2.session.replicasEnabled = w.session.replicasEnabled

namespace Passed

variable {c : Client σ} {enabled : Bool} {w w' : RunState σ} {vs : List (Visit σ)}

theorem aside (h : Aside w w') (hs : w'.session.replicasEnabled = w.session.replicasEnabled)
    (a : Outcome α) (ha : a.isCancelled = false) : Passed c enabled w [] (a, w') :=
  ⟨by rw [ha]; exact .rest h, fun _ => hs⟩

theorem call (k : Call α) (mainOnly : Bool)
    (h : w.session.replicasEnabled = (enabled && !mainOnly)) :
    Passed c enabled w [⟨k, mainOnly, w⟩] (k.run c w) := by
  let v : Visit σ := ⟨k, mainOnly, w⟩
  refine ⟨?_, fun _ => (k.walks (c := c) w).replicasEnabled⟩
  cases hcancelled : (k.run c w).1.isCancelled with
  | false =>
    have hpending : v.ending c ≠ .pending := fun h =>
      Bool.eq_false_iff.mp hcancelled (Visit.ending_eq_pending.mp h)
    exact .step (v := v) .refl h hpending (.rest .refl)
  | true => exact .stop (v := v) .refl h (Visit.ending_eq_pending.mpr hcancelled)

theorem bind {x : Run σ α} {f : α → Run σ β} {ws : α → RunState σ → List (Visit σ)}
    (hx : Passed c enabled w vs (x w))
    (hf : ∀ a w', x w = (.done a, w') →
      w'.session.replicasEnabled = w.session.replicasEnabled →
        Passed c enabled w' (ws a w') (f a w')) :
    Passed c enabled w (vs ++ Script.ifDone ws (x w)) ((x >>= f) w) := by
  obtain ⟨hpasses, hkeeps⟩ := hx
  change Passed c enabled w _ (Run.bind x f w)
  unfold Run.bind Script.ifDone
  rcases hr : x w with ⟨a | e | _, w'⟩
  · rw [hr] at hpasses hkeeps
    have hkept := hkeeps rfl
    obtain ⟨hrest, hkeeps'⟩ := hf a w' hr hkept
    exact ⟨hpasses.append hrest, fun hdone => (hkeeps' hdone).trans hkept⟩
  · rw [hr] at hpasses hkeeps
    rw [List.append_nil]
    exact ⟨hpasses, hkeeps⟩
  · rw [hr] at hpasses hkeeps
    rw [List.append_nil]
    exact ⟨hpasses, hkeeps⟩

theorem attempt {x : Run σ α} (hx : Passed c enabled w vs (x w)) :
    Passed c enabled w vs (x.attempt w) := by
  obtain ⟨hpasses, hkeeps⟩ := hx
  unfold Run.attempt
  rcases hr : x w with ⟨a | e | _, w'⟩ <;> rw [hr] at hpasses hkeeps <;> exact ⟨hpasses, hkeeps⟩

theorem useMaster {x : Run σ α}
    (hx : Passed c enabled (w.withReplicas false) vs (x (w.withReplicas false))) :
    Passed c enabled w vs (Client.useMaster x w) := by
  have hpasses := hx.passes.aside_left (.withReplicas false)
  rw [useMaster_eq]
  rcases hr : x (w.withReplicas false) with ⟨a | e | _, w'⟩ <;> rw [hr] at hpasses
  · exact ⟨hpasses.aside_right (.withReplicas _), fun _ => rfl⟩
  · exact ⟨hpasses.aside_right (.withReplicas _), fun _ => rfl⟩
  · exact ⟨hpasses, nofun⟩

end Passed

/-- A run passes through its visits. -/
theorem Script.run_passes {α : Type} (c : Client σ) (enabled : Bool) (p : Script σ α) :
    ∀ (mainOnly : Bool) (w : RunState σ), w.session.replicasEnabled = (enabled && !mainOnly) →
      Passed c enabled w (p.visits c mainOnly w) (p.run c w) := by
  induction p with
  | done a => exact fun _ _ _ => .aside .refl rfl _ rfl
  | fail e => exact fun _ _ _ => .aside .refl rfl _ rfl
  | state => exact fun _ _ _ => .aside .refl rfl _ rfl
  | log level text => exact fun _ _ _ => .aside (.logged level text) rfl _ rfl
  | «meanwhile» f => exact fun _ _ _ => .aside (.meanwhile f) rfl _ rfl
  | call k => exact fun mainOnly w h => .call k mainOnly h
  | bind p f ihp ihf =>
    exact fun mainOnly w h => (ihp mainOnly w h).bind fun a w' _ hkept =>
      ihf a mainOnly w' (hkept.trans h)
  | attempt p ih => exact fun mainOnly w h => (ih mainOnly w h).attempt
  | useMaster p ih =>
    exact fun mainOnly w h => .useMaster (ih true (w.withReplicas false) (Bool.and_false _).symm)

/-- A run from a state outside `useMaster`. -/
theorem Script.passed {α : Type} (c : Client σ) (p : Script σ α) (w : RunState σ) :
    Passed c w.session.replicasEnabled w (p.visits c false w) (p.run c w) :=
  p.run_passes c w.session.replicasEnabled false w (Bool.and_true _).symm

end Session

end QueryKit
