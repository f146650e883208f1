import QueryKit.Proofs.Session.Changes

/-!
# Where the rows of a command come from

- `Prepared.SentSince`: a statement was sent and answered since the journal was another one.
- `Client.kept`, `Client.looked`, `Client.stored`: the rows that the cache of a command keeps, the
  caches when it has been asked, and the caches when it has been given rows.
- `Client.Answered`: how a read ends that follows no other caller. What is kept is taken, with
  nothing but messages; otherwise the statement is sent, and the caches change if it succeeds.
- `Client.fetchRows_answered`, `Client.fetchRows_followed`: every read of a command, by whether it
  follows another caller.
-/

namespace QueryKit

/-- The statement was sent and answered since the journal was `j`. -/
def Prepared.SentSince (p : Prepared) (j j' : Journal) : Prop :=
  ∃ new link, j' = new ++ j ∧ .sent link p.sql p.values .done ∈ new

/-- The command was sent and answered since the journal was `j`. -/
def Command.SentSince (conn : Connection) (cmd : Command) (j j' : Journal) : Prop :=
  ∃ p, cmd.preparation conn = .ok p ∧ p.SentSince j j'

theorem Prepared.SentSince.mono {p : Prepared} {j j' j'' : Journal} (h : p.SentSince j j')
    (hj : j' <:+ j'') : p.SentSince j j'' := by
  obtain ⟨new, link, rfl, hsent⟩ := h
  obtain ⟨more, rfl⟩ := hj
  exact ⟨more ++ new, link, (List.append_assoc ..).symm, List.mem_append_right more hsent⟩

theorem Command.SentSince.mono {conn : Connection} {cmd : Command} {j j' j'' : Journal}
    (h : cmd.SentSince conn j j') (hj : j' <:+ j'') : cmd.SentSince conn j j'' := by
  obtain ⟨p, hp, hsent⟩ := h
  exact ⟨p, hp, hsent.mono hj⟩

/-- Where only messages are added nothing was sent. -/
theorem Run.Quiet.not_sentSince {σ : Type} {w w' : RunState σ} {conn : Connection} {cmd : Command}
    (h : Quiet w w') : ¬ cmd.SentSince conn w.journal w'.journal := by
  rintro ⟨p, -, new, link, hj, hsent⟩
  obtain ⟨logs, hj', hlogs⟩ := h.journal
  rw [hj] at hj'
  rw [List.append_cancel_right hj'] at hsent
  obtain ⟨level, text, he⟩ := hlogs _ hsent
  cases he

namespace Run

variable {σ α β : Type}

/-- The step does not fail. -/
def Unfailing (x : Run σ α) : Prop :=
  ∀ w e, (x w).1 ≠ .failed e

namespace Unfailing

theorem pure (a : α) : Unfailing (Run.pure a : Run σ α) :=
  fun _ _ h => by cases h

theorem bind {x : Run σ α} {f : α → Run σ β} (hx : Unfailing x) (hf : ∀ a, Unfailing (f a)) :
    Unfailing (x >>= f) := by
  intro w e
  have hx := hx w
  change (Run.bind x f w).1 ≠ _
  unfold Run.bind
  rcases hr : x w with ⟨a | e' | _, w'⟩
  · exact hf a w' e
  · rw [hr] at hx
    exact absurd rfl (hx e')
  · simp

theorem attempt (x : Run σ α) : Unfailing x.attempt := by
  intro w e
  unfold Run.attempt
  rcases x w with ⟨a | e' | _, w'⟩ <;> simp

theorem ite {p : Prop} [Decidable p] {x y : Run σ α} (hx : Unfailing x) (hy : Unfailing y) :
    Unfailing (if p then x else y) := by
  split
  · exact hx
  · exact hy

theorem state : Unfailing (Run.state : Run σ (RunState σ)) :=
  fun _ _ h => by cases h

theorem session : Unfailing (Run.session : Run σ Session) :=
  fun _ _ h => by cases h

theorem modify (f : RunState σ → RunState σ) : Unfailing (Run.modify f) :=
  fun _ _ h => by cases h

theorem now : Unfailing (Run.now : Run σ Nat) :=
  fun _ _ h => by cases h

theorem cancel : Unfailing (Run.cancel : Run σ α) :=
  fun _ _ h => by cases h

end Unfailing

end Run

namespace Client

open Run

variable {σ α β : Type} (c : Client σ)

/-! ## Success comes from a server -/

section Sent

variable {c} {cmd : Command} {p : Prepared} {r : Result α} {w₀ w w' : RunState σ}

/-- From `w₀` the caches and the flights are the same, and with a success the command was sent. -/
def Earned (c : Client σ) (cmd : Command) (w₀ : RunState σ) (r : Result α) (w : RunState σ) :
    Prop :=
  Onward w₀ w ∧ ∀ a, r = .ok a → cmd.SentSince c.connection w₀.journal w.journal

theorem Earned.onward (h : c.Earned cmd w₀ r w) (hw : Onward w w') : c.Earned cmd w₀ r w' :=
  ⟨Onward.wiring.trans h.1 hw, fun a ha => (h.2 a ha).mono hw.journal⟩

theorem Earned.error {e : Error} (h : Onward w₀ w) : c.Earned cmd w₀ (.error e : Result α) w :=
  ⟨h, nofun⟩

theorem onward_keeps {x : Run σ α} (hx : Changes Onward x) :
    Keeps (Onward w₀) (Onward w₀) x :=
  hx.keeps fun _ _ hw h => Onward.wiring.trans h hw

theorem earned_keeps {x : Run σ β} (hx : Changes Onward x) :
    Meets (Onward w₀) (Onward w₀) (c.Earned cmd w₀ r) x fun _ => c.Earned cmd w₀ r :=
  (hx.keeps fun _ _ hw h => h.onward hw).mono (fun _ h => h) (fun _ _ h => h) (fun _ h => h.1)
    fun _ h => h.1

theorem sendPrepared_earned (hp : cmd.preparation c.connection = .ok p) (read : Bool)
    (call : Link → String → List Value → σ → Outcome α × σ) :
    Meets (Onward w₀) (Onward w₀) (Onward w₀) (c.sendPrepared read call p)
      fun a => c.Earned cmd w₀ (.ok a) := by
  refine Meets.bind (onward_keeps (linkFor_changes Onward.wiring read)) fun link w hw => ?_
  unfold Run.send
  rcases call link p.sql p.values w.servers with ⟨a | e | _, servers⟩
  · obtain ⟨new, hnew⟩ := hw.journal
    refine ⟨⟨hw.caches, hw.group, .sent link p.sql p.values .done :: new, ?_⟩, fun _ _ => ?_⟩
    · rw [← hnew]
      rfl
    · exact ⟨p, hp, _ :: new, link, by rw [← hnew]; rfl, List.mem_cons_self⟩
  · exact ⟨hw.caches, hw.group, hw.journal.trans (List.suffix_cons _ _)⟩
  · exact ⟨hw.caches, hw.group, hw.journal.trans (List.suffix_cons _ _)⟩

/-- If a step sends the command when it succeeds, then so does its repetition. -/
theorem retrying_earned {rawSql : String} {x : Run σ α}
    (hx : Meets (Onward w₀) (Onward w₀) (Onward w₀) x fun a => c.Earned cmd w₀ (.ok a)) :
    ∀ patience attempt,
      Meets (Onward w₀) (Onward w₀) (Onward w₀) (c.retrying rawSql x patience attempt)
        fun r => c.Earned cmd w₀ r.1
  | 0, _ => .cancel fun _ h => h
  | patience + 1, attempt => by
    refine Meets.bind hx.attempt fun r => ?_
    cases r with
    | ok a => exact .pure fun _ h => h
    | error e =>
      refine Meets.bind (R := fun _ => Onward w₀) (fun _ hw => hw) fun s => ?_
      dsimp only
      split
      · exact .pure fun _ => Earned.error
      · refine Meets.bind (onward_keeps (.sleep Onward.wiring _)) fun _ => ?_
        refine Meets.bind (onward_keeps (.log Onward.wiring _ _)) fun _ => ?_
        exact retrying_earned hx patience _
      · refine Meets.bind (onward_keeps (.sleep Onward.wiring _)) fun _ => ?_
        refine Meets.bind (onward_keeps (reconnect_changes Onward.wiring attempt).attempt)
          fun r => ?_
        split
        · exact retrying_earned hx patience _
        · exact .pure fun _ => Earned.error

theorem runCommand_earned (cmd : Command) (rawSql : String)
    (call : Link → String → List Value → σ → Outcome α × σ) :
    Meets (Onward w₀) (Onward w₀) (Onward w₀) (c.runCommand cmd rawSql call)
      fun r => c.Earned cmd w₀ r.1 := by
  unfold runCommand
  split
  · exact .pure fun _ => Earned.error
  · next p hp =>
    exact (retrying_earned (sendPrepared_earned hp _ call) _ _).bind fun r => .pure fun _ h => h

/-- A statement that is not empty is sent if its execution succeeds. -/
theorem execute_earned (cmd : Command) (hsql : cmd.sql ≠ "") :
    Meets (Onward w₀) (Onward w₀) (Onward w₀) (c.execute cmd) fun r => c.Earned cmd w₀ r.1 := by
  refine Meets.bind (onward_keeps (logQuery_changes Onward.wiring _)) fun _ => ?_
  rw [if_neg hsql]
  refine Meets.bind (runCommand_earned cmd _ _) fun r => ?_
  dsimp only
  split
  · exact (earned_keeps (release_changes Onward.wiring false)).bind fun _ =>
      .pure fun _ h => .error h.1
  · next executed hr =>
    refine (earned_keeps (settle_changes Onward.wiring _ executed)).bind fun _ => ?_
    exact .pure fun _ h => ⟨h.1, fun _ _ => h.2 executed hr⟩

end Sent

/-! ## Failures are results -/

section Unfailing

variable {c}

theorem logQuery_unfailing (message : String) : Unfailing (c.logQuery message) :=
  .ite (.modify _) (.pure _)

theorem releaseMaster_unfailing : Unfailing (releaseMaster : Run σ Unit) := by
  refine .bind .session fun s => ?_
  split
  · exact .bind (.modify _) fun _ => .modify _
  · exact .pure _

theorem releaseReplica_unfailing : Unfailing (releaseReplica : Run σ Unit) := by
  refine .bind .session fun s => ?_
  split
  · exact .bind (.modify _) fun _ => .modify _
  · exact .pure _

theorem release_unfailing (force : Bool) : Unfailing (c.release force) :=
  .bind .session fun _ => .ite
    (.bind releaseMaster_unfailing fun _ => .bind releaseReplica_unfailing fun _ => .modify _)
    (.pure _)

theorem retrying_unfailing (rawSql : String) (x : Run σ α) :
    ∀ patience attempt, Unfailing (c.retrying rawSql x patience attempt)
  | 0, _ => .cancel
  | patience + 1, attempt => by
    refine .bind (.attempt x) fun r => ?_
    split
    · exact .pure _
    · refine .bind .session fun s => ?_
      dsimp only
      split
      · exact .pure _
      · exact .bind (.modify _) fun _ => .bind (.modify _) fun _ => retrying_unfailing rawSql x _ _
      · refine .bind (.modify _) fun _ => .bind (.attempt _) fun r => ?_
        split
        · exact retrying_unfailing rawSql x _ _
        · exact .pure _

theorem runCommand_unfailing (cmd : Command) (rawSql : String)
    (call : Link → String → List Value → σ → Outcome α × σ) :
    Unfailing (c.runCommand cmd rawSql call) := by
  unfold runCommand
  split
  · exact .pure _
  · exact .bind (retrying_unfailing _ _ _ _) fun _ => .pure _

theorem readCache_unfailing (number : Nat) (key : String) :
    Unfailing (readCache number key : Run σ (Option String)) := by
  refine .bind .now fun time => .bind .state fun w => ?_
  split
  · exact .pure _
  · exact .bind (.modify _) fun _ => .pure _

theorem cachedRows_unfailing (cmd : Command) (key : String) : Unfailing (c.cachedRows cmd key) := by
  unfold cachedRows
  split
  · exact .pure _
  · exact .bind (readCache_unfailing _ _) fun _ => .pure _

theorem storeRows_unfailing (cmd : Command) (key : String) (rows : List Row) :
    Unfailing (c.storeRows cmd key rows) := by
  unfold storeRows
  split
  · exact .bind (.bind .now fun _ => .modify _) fun _ => logQuery_unfailing _
  · exact .pure _

/-- What fails in a read is part of its result. -/
theorem fetchCached_unfailing (cmd : Command) (method rawSql : String) :
    Unfailing (c.fetchCached cmd method rawSql) := by
  refine .bind (cachedRows_unfailing cmd _) fun cached => ?_
  split
  · exact .bind (logQuery_unfailing _) fun _ => .pure _
  · refine .bind (logQuery_unfailing _) fun _ => .bind (runCommand_unfailing _ _ _) fun r => ?_
    refine .bind (release_unfailing false) fun _ => ?_
    split
    · exact .pure _
    · exact .bind (storeRows_unfailing _ _ _) fun _ => .pure _

end Unfailing

/-! ## The cache of a command -/

/-- The rows that the cache of a command keeps. -/
def kept (cmd : Command) (key : String) (w : RunState σ) : Option (List Row) :=
  (c.cacheOf cmd).bind fun (number, _) => w.caches[number]?.bind fun cache =>
    (cache.get key w.clock).1.bind fun text => (readRows text).toOption

/-- The caches when the cache of a command has been asked for a key. -/
def looked (cmd : Command) (key : String) (w : RunState σ) : List MemoryCache :=
  match c.cacheOf cmd with
  | none => w.caches
  | some (number, _) => w.caches.modify number fun cache => (cache.get key w.clock).2

/-- Caches when the cache of a command has been given rows. -/
def stored (cmd : Command) (key : String) (rows : List Row) (time : Nat)
    (caches : List MemoryCache) : List MemoryCache :=
  match c.cacheOf cmd with
  | none => caches
  | some (number, ttl) => caches.modify number fun cache => cache.set key (storedRows rows) ttl time

variable {c}

theorem readCache_done (number : Nat) (key : String) (w : RunState σ) :
    readCache number key w =
      (.done (w.caches[number]?.bind fun cache => (cache.get key w.clock).1),
        { w with
          caches := w.caches.modify number fun cache => (cache.get key w.clock).2
          clock := w.clock + 1 }) := by
  unfold readCache
  simp only [Bind.bind, Run.bind, Run.now, Run.state, Pure.pure]
  cases hn : w.caches[number]? with
  | none => simp [Run.pure, List.modify_eq_self (List.getElem?_eq_none_iff.mp hn)]
  | some cache =>
    have hset : w.caches.set number (cache.get key w.clock).2 =
        w.caches.modify number fun cache => (cache.get key w.clock).2 := by
      refine List.ext_getElem? fun i => ?_
      rw [List.getElem?_modify, List.getElem?_set']
      by_cases hi : number = i
      · subst hi
        simp [hn]
      · simp [hi]
    simp only [Run.modify, Run.pure, Run.bind, hset]
    rfl

theorem cachedRows_done (cmd : Command) (key : String) (w : RunState σ) :
    ∃ time, c.cachedRows cmd key w =
      (.done (c.kept cmd key w), { w with caches := c.looked cmd key w, clock := time }) := by
  unfold cachedRows kept looked
  cases c.cacheOf cmd with
  | none => exact ⟨w.clock, rfl⟩
  | some cache =>
    obtain ⟨number, ttl⟩ := cache
    refine ⟨w.clock + 1, ?_⟩
    change Run.bind (readCache number key) _ w = _
    unfold Run.bind
    rw [readCache_done]
    simp only [Option.bind_assoc, Option.bind_some]
    rfl

theorem storeRows_done (cmd : Command) (key : String) (rows : List Row) (w : RunState σ) :
    ∃ time w', c.storeRows cmd key rows w = (.done (), w') ∧
      w'.caches = c.stored cmd key rows time w.caches ∧ w.journal <:+ w'.journal := by
  unfold storeRows stored
  cases c.cacheOf cmd with
  | none => exact ⟨w.clock, w, rfl, rfl, List.suffix_rfl⟩
  | some cache =>
    obtain ⟨number, ttl⟩ := cache
    let w₁ : RunState σ := { w with
      caches := w.caches.modify number fun cache => cache.set key (storedRows rows) ttl w.clock
      clock := w.clock + 1 }
    obtain ⟨w', hlog, -, hon⟩ := logQuery_done (c := c) "Saved query result in cache" w₁
    exact ⟨w.clock, w', hlog, hon.caches, hon.journal⟩

/-! ## Reads -/

variable (c)

/-- How a read of a key ends that follows no other caller. -/
inductive Answered (cmd : Command) (key : String) (w : RunState σ) :
    Outcome (Rows × Command) × RunState σ → Prop
  /-- The kept rows are taken, with nothing but messages. -/
  | kept {rows w'} (found : c.kept cmd key w = some rows) (quiet : Quiet w w')
    (caches : w'.caches = c.looked cmd key w) : Answered cmd key w (.done (.ok rows, cmd), w')
  /-- The command was sent, and its rows went into the cache. -/
  | fetched {rows cmd' w' time} (missed : c.kept cmd key w = none)
    (sent : cmd.SentSince c.connection w.journal w'.journal)
    (caches : w'.caches = c.stored cmd key rows time (c.looked cmd key w)) :
    Answered cmd key w (.done (.ok rows, cmd'), w')
  /-- The read failed or was cancelled. -/
  | broken {o w'} (missed : c.kept cmd key w = none)
    (failed : ∀ rows cmd', o ≠ .done (.ok rows, cmd'))
    (caches : w'.caches = c.looked cmd key w) : Answered cmd key w (o, w')

variable {c} {cmd : Command} {key : String} {w : RunState σ}

/-- What a read that finds nothing in the cache leaves, when it starts from `w₀`. -/
def Fetched (c : Client σ) (cmd : Command) (key : String) (w₀ : RunState σ) :
    Rows → RunState σ → Prop
  | .error _, w => Onward w₀ w
  | .ok rows, w => cmd.SentSince c.connection w₀.journal w.journal ∧
    ∃ time, w.caches = c.stored cmd key rows time w₀.caches

theorem Answered.of_meets {x : Run σ (Rows × Command)} {w₀ : RunState σ}
    (missed : c.kept cmd key w = none) (hcaches : w₀.caches = c.looked cmd key w)
    (hjournal : w₀.journal = w.journal)
    (hx : Meets (Onward w₀) (Onward w₀) (Onward w₀) x fun r => c.Fetched cmd key w₀ r.1) :
    c.Answered cmd key w (x w₀) := by
  have hx := hx w₀ (Onward.wiring.refl w₀)
  rcases hr : x w₀ with ⟨⟨e | rows, cmd'⟩ | e | _, w'⟩ <;> rw [hr] at hx
  · exact .broken missed (by simp) (hx.caches.trans hcaches)
  · obtain ⟨hsent, time, hstored⟩ := hx
    exact .fetched missed (hjournal ▸ hsent) (hcaches ▸ hstored)
  · exact .broken missed (by simp) (hx.caches.trans hcaches)
  · exact .broken missed (by simp) (hx.caches.trans hcaches)

theorem storeRows_fetched {w₀ : RunState σ} {cmd' : Command} (rows : List Row) :
    Meets (Onward w₀) (Onward w₀) (c.Earned cmd w₀ (.ok rows))
      (do c.storeRows cmd key rows; return (.ok rows, cmd') : Run σ (Rows × Command))
      fun r => c.Fetched cmd key w₀ r.1 := by
  intro w hw
  obtain ⟨time, w', hdone, hcaches, hjournal⟩ := storeRows_done (c := c) cmd key rows w
  change Ends _ _ _ (Run.bind (c.storeRows cmd key rows) _ w)
  unfold Run.bind
  rw [hdone]
  exact ⟨(hw.2 rows rfl).mono hjournal, time, hw.1.caches ▸ hcaches⟩

theorem fetchCached_answered (cmd : Command) (method rawSql : String) (w : RunState σ) :
    c.Answered cmd (c.resultKey method rawSql) w (c.fetchCached cmd method rawSql w) := by
  obtain ⟨time, hdone⟩ := cachedRows_done (c := c) cmd (c.resultKey method rawSql) w
  change c.Answered cmd _ w (Run.bind (c.cachedRows cmd _) _ w)
  unfold Run.bind
  rw [hdone]
  dsimp only
  cases hkept : c.kept cmd (c.resultKey method rawSql) w with
  | some rows =>
    obtain ⟨w', hlog, hquiet, hon⟩ := logQuery_done (c := c)
      (rawSql ++ "; [Query result read from cache]")
      { w with caches := c.looked cmd (c.resultKey method rawSql) w, clock := time }
    change c.Answered cmd _ w (Run.bind (c.logQuery _) _ _)
    unfold Run.bind
    rw [hlog]
    exact .kept hkept ⟨hquiet.session, hquiet.nextLink, hquiet.journal⟩ hon.caches
  | none =>
    refine .of_meets hkept rfl rfl ?_
    refine Meets.bind (onward_keeps (logQuery_changes Onward.wiring rawSql)) fun _ => ?_
    refine Meets.bind (runCommand_earned cmd rawSql _) fun r => ?_
    refine Meets.bind (earned_keeps (release_changes Onward.wiring false)) fun _ => ?_
    obtain ⟨r, after⟩ := r
    cases r with
    | error e => exact .pure fun _ h => h.1
    | ok rows => exact storeRows_fetched rows

/-- What happens to the flights and the servers, and in the end to the flights again, does not
matter to an answer. -/
theorem Answered.shared {w₁ : RunState σ} {r : Outcome (Rows × Command) × RunState σ}
    (h : c.Answered cmd key w₁ r) (hcaches : w₁.caches = w.caches) (hclock : w₁.clock = w.clock)
    (hquiet : Quiet w w₁) (hjournal : w₁.journal = w.journal) (group : ShareGroup Rows) :
    c.Answered cmd key w (r.1, { r.2 with group }) := by
  have hkept : c.kept cmd key w₁ = c.kept cmd key w := by
    simp only [Client.kept, hcaches, hclock]
  have hlooked : c.looked cmd key w₁ = c.looked cmd key w := by
    simp only [Client.looked, hcaches, hclock]
  cases h with
  | kept found quiet caches =>
    exact .kept (hkept ▸ found) (hquiet.trans ⟨quiet.session, quiet.nextLink, quiet.journal⟩)
      (hlooked ▸ caches)
  | fetched missed sent caches =>
    exact .fetched (hkept ▸ missed) (hjournal ▸ sent) (hlooked ▸ caches)
  | broken missed failed caches => exact .broken (hkept ▸ missed) failed (hlooked ▸ caches)

variable (c)

/-- The flight that a read of a command follows, if it shares its rows. -/
def flightOf (cmd : Command) (method : String) (w : RunState σ) : Option Nat :=
  if cmd.share then w.group.inflight.lookup (c.resultKey method (cmd.rawSql c.connection)) else none

variable {c}

/-- The state when a read has taken its ticket. -/
def boarded (c : Client σ) (cmd : Command) (method : String) (w : RunState σ) : RunState σ :=
  { w with group := (w.group.arrive (c.resultKey method (cmd.rawSql c.connection))).2 }

/-- The read of a leader ends as its fetch does, and with it its flight. -/
theorem fetchRows_leader {method : String} (hshare : cmd.share = true)
    (hw : c.flightOf cmd method w = none) :
    let r := c.fetchCached cmd method (cmd.rawSql c.connection) (c.boarded cmd method w)
    ∃ ending, c.fetchRows cmd method w = (r.1, { r.2 with
      group := r.2.group.conclude (c.resultKey method (cmd.rawSql c.connection))
        w.group.flights.length ending }) := by
  intro r
  rw [flightOf, if_pos hshare] at hw
  have harrive : arrive (c.resultKey method (cmd.rawSql c.connection)) w =
      (.done (.leader w.group.flights.length), c.boarded cmd method w) := by
    simp [arrive, boarded, ShareGroup.arrive, hw]
  unfold fetchRows
  rw [if_pos hshare]
  change ∃ _, Run.bind (arrive _) _ w = _
  unfold Run.bind
  rw [harrive]
  change ∃ _, Run.bind (Run.onCancel _ _) _ _ = _
  unfold Run.bind Run.onCancel
  have hfails := fetchCached_unfailing (c := c) cmd method (cmd.rawSql c.connection)
    (c.boarded cmd method w)
  rcases hr : c.fetchCached cmd method (cmd.rawSql c.connection) (c.boarded cmd method w) with
    ⟨answer | e | _, w'⟩
  · exact ⟨.landed answer.1, by simp only [r, hr]; rfl⟩
  · rw [hr] at hfails
    exact absurd rfl (hfails e)
  · exact ⟨.abandoned, by simp only [r, hr]; rfl⟩

/-- A read that follows no other caller. -/
theorem fetchRows_answered {method : String} (hw : c.flightOf cmd method w = none) :
    c.Answered cmd (c.resultKey method (cmd.rawSql c.connection)) w (c.fetchRows cmd method w) := by
  by_cases hshare : cmd.share = true
  · obtain ⟨ending, heq⟩ := fetchRows_leader hshare hw
    rw [heq]
    have h := fetchCached_answered (c := c) cmd method (cmd.rawSql c.connection)
      (c.boarded cmd method w)
    exact Answered.shared (w := w) h rfl rfl (.of_eq rfl rfl rfl) rfl _
  · unfold fetchRows
    rw [if_neg hshare]
    exact fetchCached_answered cmd method _ w

variable {method : String} {flight : Nat} {servers : σ}

/-- A read that follows another caller looks at the flight of this caller. -/
theorem fetchRows_follower (hw : c.flightOf cmd method w = some flight) :
    c.fetchRows cmd method w = Run.bind (Run.observe (c.backend.await flight)) (fun landing =>
      match landing with
      | .landed rows => Run.pure (rows, cmd)
      | .abandoned => c.fetchCached cmd method (cmd.rawSql c.connection)
      | .running => Run.cancel) w := by
  unfold flightOf at hw
  split at hw
  · next hshare =>
    unfold fetchRows
    rw [if_pos hshare]
    change Run.bind (arrive _) _ w = _
    simp only [Run.bind, arrive, ShareGroup.arrive, hw]
    rfl
  · cases hw

/-- The rows of the other caller are taken. -/
theorem fetchRows_landed {rows : Rows} (hw : c.flightOf cmd method w = some flight)
    (ha : c.backend.await flight w.servers = (.landed rows, servers)) :
    c.fetchRows cmd method w = (.done (rows, cmd), { w with servers }) := by
  rw [fetchRows_follower hw]
  simp only [Run.bind, Run.observe, ha, Run.pure]

theorem fetchRows_running (hw : c.flightOf cmd method w = some flight)
    (ha : c.backend.await flight w.servers = (.running, servers)) :
    c.fetchRows cmd method w = (.cancelled, { w with servers }) := by
  rw [fetchRows_follower hw]
  simp only [Run.bind, Run.observe, ha, Run.cancel]

/-- When the other caller went away the read goes its own way. -/
theorem fetchRows_abandoned (hw : c.flightOf cmd method w = some flight)
    (ha : c.backend.await flight w.servers = (.abandoned, servers)) :
    c.Answered cmd (c.resultKey method (cmd.rawSql c.connection)) w (c.fetchRows cmd method w) := by
  rw [fetchRows_follower hw]
  simp only [Run.bind, Run.observe, ha]
  have h := fetchCached_answered (c := c) cmd method (cmd.rawSql c.connection) { w with servers }
  exact Answered.shared (w := w) h rfl rfl (.of_eq rfl rfl rfl) rfl
    (c.fetchCached cmd method (cmd.rawSql c.connection) { w with servers }).2.group

end Client

end QueryKit
