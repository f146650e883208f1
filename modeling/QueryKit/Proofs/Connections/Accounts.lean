import QueryKit.Proofs.Command.Answers
import QueryKit.Proofs.Connections.Script
import Mathlib.Data.List.Basic

/-!
# Accounts of connections

- `Journal.out`: the connections that were taken and not given back. `Journal.Fair` says that no
  connection is taken twice and that only those which are out are used and given back; then the
  numbers of each pool balance (`Journal.Fair.balance`).
- `Session.Accounts`: the connections that are out are those that the session holds. Every move
  keeps this (`Accounts.move`), and so does every run.
- `Client.drop_eq`, `Call.empties`: when nothing is held any more.
- `Script.run_accounts`: the accounts of every run, at each of its calls, at its end and when the
  session has been dropped.
-/

namespace QueryKit

/-- The connection that an event is about. -/
def Event.link? : Event → Option Link
  | .acquired link => some link
  | .released link => some link
  | .discarded link => some link
  | .sent link _ _ _ => some link
  | .logged _ _ => none

namespace Journal

/-- The connections that were taken and have not been given back. -/
def out : Journal → List Link
  | [] => []
  | .acquired link :: j => link :: out j
  | .released link :: j => (out j).erase link
  | .discarded link :: j => (out j).erase link
  | _ :: j => out j

/-- What is taken is new; only what is out is used, and given back to the pool it came from. -/
def Fair : Journal → Prop
  | [] => True
  | .acquired link :: j => (∀ e ∈ j, ∀ l ∈ e.link?, l.number ≠ link.number) ∧ Fair j
  | .released link :: j => link ∈ out j ∧ Fair j
  | .discarded link :: j => link ∈ out j ∧ Fair j
  | .sent link _ _ _ :: j => link ∈ out j ∧ Fair j
  | .logged _ _ :: j => Fair j

variable {j : Journal} {id : PoolId} {link : Link}

theorem acquisitions_cons (link : Link) :
    acquisitions id (.acquired link :: j)
      = acquisitions id j + if link.pool.id = id then 1 else 0 := by
  simp [acquisitions, List.countP_cons]

theorem releases_cons (link : Link) :
    releases id (.released link :: j) = releases id j + if link.pool.id = id then 1 else 0 := by
  simp [releases, List.countP_cons]

theorem discards_cons (link : Link) :
    discards id (.discarded link :: j) = discards id j + if link.pool.id = id then 1 else 0 := by
  simp [discards, List.countP_cons]

/-- How many connections of a pool are in a list. -/
def ofPool (id : PoolId) (links : List Link) : Nat :=
  links.countP fun link => link.pool.id = id

theorem ofPool_cons (links : List Link) :
    ofPool id (link :: links) = ofPool id links + if link.pool.id = id then 1 else 0 := by
  simp [ofPool, List.countP_cons]

theorem ofPool_erase {links : List Link} (h : link ∈ links) :
    ofPool id links = ofPool id (links.erase link) + if link.pool.id = id then 1 else 0 := by
  rw [← ofPool_cons]
  exact (List.perm_cons_erase h).countP_eq _

/-- In each pool, what was taken has been given back or closed, or it is out. -/
theorem Fair.balance (h : Fair j) (id : PoolId) :
    acquisitions id j = releases id j + discards id j + ofPool id (out j) := by
  induction j with
  | nil => rfl
  | cons e j ih =>
    cases e with
    | acquired link =>
      have hj := ih h.2
      have hr : releases id (.acquired link :: j) = releases id j := rfl
      have hd : discards id (.acquired link :: j) = discards id j := rfl
      rw [acquisitions_cons, hr, hd, out, ofPool_cons]
      omega
    | released link =>
      have hj := ih h.2
      have ha : acquisitions id (.released link :: j) = acquisitions id j := rfl
      have hd : discards id (.released link :: j) = discards id j := rfl
      rw [ofPool_erase h.1] at hj
      rw [releases_cons, ha, hd, out]
      omega
    | discarded link =>
      have hj := ih h.2
      have ha : acquisitions id (.discarded link :: j) = acquisitions id j := rfl
      have hr : releases id (.discarded link :: j) = releases id j := rfl
      rw [ofPool_erase h.1] at hj
      rw [discards_cons, ha, hr, out]
      omega
    | sent link sql values ending => exact ih h.2
    | logged level text => exact ih h

/-- What is out was taken. -/
theorem acquired_of_mem_out (h : link ∈ out j) : .acquired link ∈ j := by
  induction j with
  | nil => cases h
  | cons e j ih =>
    cases e with
    | acquired l =>
      rcases List.mem_cons.mp h with rfl | h
      · exact List.mem_cons_self
      · exact List.mem_cons_of_mem _ (ih h)
    | released l => exact List.mem_cons_of_mem _ (ih (List.mem_of_mem_erase h))
    | discarded l => exact List.mem_cons_of_mem _ (ih (List.mem_of_mem_erase h))
    | sent l sql values ending => exact List.mem_cons_of_mem _ (ih h)
    | logged level text => exact List.mem_cons_of_mem _ (ih h)

section Logs

variable {messages : List Event}
  (hlogs : ∀ e ∈ messages, ∃ level text, e = .logged level text)
include hlogs

theorem out_logs : out (messages ++ j) = out j := by
  induction messages with
  | nil => rfl
  | cons e messages ih =>
    obtain ⟨level, text, rfl⟩ := hlogs e List.mem_cons_self
    exact ih fun e he => hlogs e (List.mem_cons_of_mem _ he)

theorem Fair.logs (h : Fair j) : Fair (messages ++ j) := by
  induction messages with
  | nil => exact h
  | cons e messages ih =>
    obtain ⟨level, text, rfl⟩ := hlogs e List.mem_cons_self
    exact ih fun e he => hlogs e (List.mem_cons_of_mem _ he)

theorem mem_of_mem_logs {e : Event} (he : e ∈ messages ++ j) (hlink : e.link? ≠ none) : e ∈ j := by
  rcases List.mem_append.mp he with he | he
  · obtain ⟨level, text, rfl⟩ := hlogs e he
    exact absurd rfl hlink
  · exact he

end Logs

end Journal

open Journal (ofPool)

namespace Session

open Run Client

variable {σ α : Type} {c : Client σ} {k : Permit} {w w' : RunState σ} {link : Link}

/-- The connections that a session holds: at most one master and one replica. -/
def held (s : Session) : List Link :=
  s.master.toList ++ s.replica.toList

/-- The replica is held beside the master. -/
theorem held_replica {s : Session} (h : s.replica = some link) :
    s.held.Perm (link :: { s with replica := none }.held) := by
  simp only [held, h, Option.toList_some, Option.toList_none, List.append_nil]
  exact List.perm_append_singleton _ _

/-- The connections that are out are those that the session holds, each from a server of its rank,
and no connection is known that will yet be opened. -/
structure Accounts (c : Client σ) (w : RunState σ) : Prop where
  fair : w.journal.Fair
  out : w.journal.out.Perm w.session.held
  number_lt : ∀ e ∈ w.journal, ∀ link ∈ e.link?, link.number < w.nextLink
  master : ∀ link ∈ w.session.master, link.pool ∈ c.connection.mains
  replica : ∀ link ∈ w.session.replica, link.pool ∈ c.connection.replicas

namespace Accounts

theorem opened (c : Client σ) (w : RunState σ) : Accounts c (w.opened c.connection) where
  fair := trivial
  out := .refl _
  number_lt := nofun
  master := nofun
  replica := nofun

theorem mem_out (h : Accounts c w) : link ∈ w.journal.out ↔ link ∈ w.session.held :=
  h.out.mem_iff

theorem held_lt (h : Accounts c w) (hl : link ∈ w.session.held) : link.number < w.nextLink :=
  h.number_lt _ (Journal.acquired_of_mem_out (h.mem_out.mpr hl)) link rfl

theorem of_logs {enabled : Bool} (h : Accounts c w) {logs : List Event}
    (hs : w'.session = { w.session with replicasEnabled := enabled })
    (hnext : w.nextLink ≤ w'.nextLink) (hj : w'.journal = logs ++ w.journal)
    (hlogs : ∀ e ∈ logs, ∃ level text, e = .logged level text) : Accounts c w' where
  fair := hj ▸ h.fair.logs hlogs
  out := by
    rw [hj, Journal.out_logs hlogs, hs]
    exact h.out
  number_lt e he link hlink := by
    rw [hj] at he
    have hne : e.link? ≠ none := by
      intro hnone
      rw [hnone] at hlink
      cases hlink
    exact Nat.lt_of_lt_of_le (h.number_lt e (Journal.mem_of_mem_logs hlogs he hne) link hlink) hnext
  master link hl := h.master link (by rwa [hs] at hl)
  replica link hl := h.replica link (by rwa [hs] at hl)

theorem aside (h : Accounts c w) (ha : Aside w w') : Accounts c w' := by
  obtain ⟨enabled, hs⟩ := ha.session
  obtain ⟨logs, hj, hlogs⟩ := ha.journal
  exact h.of_logs hs ha.nextLink hj hlogs

theorem quiet (h : Accounts c w) (hq : Quiet w w') : Accounts c w' := by
  obtain ⟨logs, hj, hlogs⟩ := hq.journal
  exact h.of_logs (hq.session.trans rfl) (Nat.le_of_eq hq.nextLink.symm) hj hlogs

/-- The numbers of connections after one more event. -/
theorem number_lt_cons (h : Accounts c w) {e : Event} {next : Nat} (hnext : w.nextLink ≤ next)
    (he : ∀ link ∈ e.link?, link.number < next) :
    ∀ e' ∈ e :: w.journal, ∀ link ∈ e'.link?, link.number < next := by
  intro e' he' link hlink
  rcases List.mem_cons.mp he' with rfl | he'
  · exact he link hlink
  · exact Nat.lt_of_lt_of_le (h.number_lt e' he' link hlink) hnext

/-- A connection is taken, and the session holds it. -/
theorem acquired (h : Accounts c w) {pool : Pool} {s : Session}
    (hs : s.held.Perm (⟨pool, w.nextLink⟩ :: w.session.held))
    (hmaster : ∀ link ∈ s.master, link.pool ∈ c.connection.mains)
    (hreplica : ∀ link ∈ s.replica, link.pool ∈ c.connection.replicas) :
    Accounts c { w with
      nextLink := w.nextLink + 1
      journal := .acquired ⟨pool, w.nextLink⟩ :: w.journal
      session := s } where
  fair := ⟨fun e he link hlink => Nat.ne_of_lt (h.number_lt e he link hlink), h.fair⟩
  out := (h.out.cons _).trans hs.symm
  number_lt := h.number_lt_cons (Nat.le_succ _) fun link hlink => by
    cases hlink
    exact Nat.lt_succ_self _
  master := hmaster
  replica := hreplica

/-- A statement is sent on a connection that is held. -/
theorem sent (h : Accounts c w) (hl : link ∈ w.session.held) (sql : String) (values : List Value)
    (ending : Ending) (servers : σ) :
    Accounts c { w with servers, journal := .sent link sql values ending :: w.journal } where
  fair := ⟨h.mem_out.mpr hl, h.fair⟩
  out := h.out
  number_lt := h.number_lt_cons (Nat.le_refl _) fun l hlink => by
    cases hlink
    exact h.held_lt hl
  master := h.master
  replica := h.replica

/-- A connection that was held is given back or closed. -/
theorem returned (h : Accounts c w) {e : Event} {s : Session}
    (hs : w.session.held.Perm (link :: s.held)) (he : e = .released link ∨ e = .discarded link)
    (hmaster : ∀ link ∈ s.master, link.pool ∈ c.connection.mains)
    (hreplica : ∀ link ∈ s.replica, link.pool ∈ c.connection.replicas) :
    Accounts c { w with journal := e :: w.journal, session := s } := by
  have hl : link ∈ w.session.held := hs.mem_iff.mpr List.mem_cons_self
  have hout : (w.journal.out.erase link).Perm s.held := by
    have herase := (h.out.trans hs).erase link
    rwa [List.erase_cons_head] at herase
  have hnumber : ∀ l ∈ e.link?, l.number < w.nextLink := by
    rcases he with rfl | rfl <;> rintro _ ⟨⟩ <;> exact h.held_lt hl
  have hfair : Journal.Fair (e :: w.journal) ∧ Journal.out (e :: w.journal)
      = w.journal.out.erase link := by
    rcases he with rfl | rfl <;> exact ⟨⟨h.mem_out.mpr hl, h.fair⟩, rfl⟩
  exact ⟨hfair.1, hfair.2 ▸ hout, h.number_lt_cons (Nat.le_refl _) hnumber, hmaster, hreplica⟩

theorem move (h : Accounts c w) (hmove : c.Move k w w') : Accounts c w' := by
  cases hmove with
  | quiet hq => exact h.quiet hq
  | openMaster hmaster hpool =>
    refine h.acquired (by simp [held, hmaster]) (fun link hl => ?_) h.replica
    cases hl
    exact hpool
  | openReplica hreplica hpool =>
    refine h.acquired ?_ h.master fun link hl => ?_
    · rw [held, held, hreplica]
      simp only [Option.toList_some, Option.toList_none, List.append_nil]
      exact List.perm_append_singleton _ _
    · cases hl
      exact hpool
  | sendMaster values ending servers hmaster _ =>
    exact h.sent (by simp [held, hmaster]) _ _ _ _
  | sendReplica values ending servers hreplica _ =>
    exact h.sent (by simp [held, hreplica]) _ _ _ _
  | releaseMaster hmaster _ =>
    exact h.returned (by simp [held, hmaster]) (.inl rfl) nofun h.replica
  | discardMaster hmaster _ =>
    exact h.returned (by simp [held, hmaster]) (.inr rfl) nofun h.replica
  | releaseReplica hreplica => exact h.returned (held_replica hreplica) (.inl rfl) h.master nofun
  | discardReplica hreplica => exact h.returned (held_replica hreplica) (.inr rfl) h.master nofun
  | adjust hmaster hreplica _ _ =>
    refine ⟨h.fair, ?_, h.number_lt, fun link hl => ?_, fun link hl => ?_⟩
    · change w.journal.out.Perm (held _)
      rw [held, hmaster, hreplica]
      exact h.out
    · exact h.master link (hmaster ▸ hl)
    · exact h.replica link (hreplica ▸ hl)

theorem reach (h : Accounts c w) (hreach : c.Reach k w w') : Accounts c w' := by
  induction hreach with
  | refl => exact h
  | tail _ hmove ih => exact ih.move hmove

end Accounts

end Session

/-! ## Giving everything back -/

namespace Client

open Run

variable {σ α β : Type} {c : Client σ}

theorem release_eq {w : RunState σ} {force : Bool} (hlevel : w.session.level = 0)
    (hforce : (force || c.connection.config.autoRelease) = true) :
    c.release force w = (.done (), { w with
      journal := (w.session.replica.toList ++ w.session.master.toList).map .released ++ w.journal
      session := { w.session with master := none, replica := none, replicasDown := false } }) := by
  have hactive : w.session.isActive = false := by simp [Session.isActive, hlevel]
  rcases hm : w.session.master with _ | m <;> rcases hr : w.session.replica with _ | r <;>
    simp [release, releaseMaster, releaseReplica, Bind.bind, Run.bind, Run.session, hactive, hforce,
      hm, hr, Run.modifySession, Run.modify, Run.note, Pure.pure, Run.pure]

theorem close_eq (w : RunState σ) : ∃ logs, (∀ e ∈ logs, ∃ level text, e = .logged level text) ∧
    c.close w = (.done (), { w with
      journal := (w.session.replica.toList ++ w.session.master.toList).map .discarded ++
        (logs ++ w.journal)
      session := { w.session with
        master := none
        replica := none
        replicasDown := false
        level := 0
        isolation := none } }) := by
  rcases hm : w.session.master with _ | m <;> rcases hr : w.session.replica with _ | r
  · refine ⟨[], nofun, ?_⟩
    simp [close, discardMaster, dropMaster, dropReplica, Bind.bind, Run.bind, Run.session,
      hm, hr, Run.modifySession, Run.modify, Pure.pure, Run.pure, Session.resetTransaction]
  all_goals
    refine ⟨[.logged .warn ("Closing DB connection: " ++ c.connection.shortDsn)], by simp, ?_⟩
    simp [close, discardMaster, dropMaster, dropReplica, Bind.bind, Run.bind, Run.session, hm, hr,
      Run.modifySession, Run.modify, Run.note, Run.log, Pure.pure, Run.pure,
      Session.resetTransaction]

/-- How a session gives back what it holds when it ends. -/
def parting (s : Session) : Link → Event :=
  if s.level = 0 then .released else .discarded

/-- A session ends at once, and holds nothing then. Its connections go back to their pools if it is
at level 0, and they are closed if it is not. -/
theorem drop_eq (w : RunState σ) : ∃ w', c.drop w = (.done (), w') ∧ w'.session.held = [] ∧
    ∃ logs, (∀ e ∈ logs, ∃ level text, e = .logged level text) ∧
      w'.journal = (w.session.replica.toList ++ w.session.master.toList).map (parting w.session) ++
        (logs ++ w.journal) := by
  change ∃ w', (if w.session.isActive then c.close else c.release true) w = (.done (), w') ∧ _
  by_cases hlevel : w.session.level = 0
  · have hactive : w.session.isActive = false := by simp [Session.isActive, hlevel]
    rw [if_neg (by simp [hactive]), release_eq hlevel rfl, parting, if_pos hlevel]
    exact ⟨_, rfl, rfl, [], List.forall_mem_nil _, rfl⟩
  · have hactive : w.session.isActive = true := by simp [Session.isActive, hlevel]
    obtain ⟨logs, hlogs, hclose⟩ := close_eq (c := c) w
    rw [if_pos hactive, hclose, parting, if_neg hlevel]
    exact ⟨_, rfl, rfl, logs, hlogs, rfl⟩

/-! ## Commands that keep nothing -/

/-- Outside a transaction the step does not fail, and if it is not cancelled the session holds
nothing then. -/
abbrev Empties (P : RunState σ → Prop) (x : Run σ α) : Prop :=
  Meets (fun _ => False) (fun _ => True) P x fun _ w => w.session.held = []

theorem release_empties (hauto : c.connection.config.autoRelease = true) (force : Bool) :
    Empties (fun w => w.session.level = 0) (c.release force) := by
  intro w hlevel
  rw [release_eq hlevel (by rw [hauto, Bool.or_true])]
  exact rfl

/-- What can be said of a step that does not fail. -/
theorem meets_unfailing {x : Run σ α} {I J P : RunState σ → Prop} {Q : α → RunState σ → Prop}
    (hx : Meets I J P x Q) (hfail : Unfailing x) : Meets (fun _ => False) J P x Q := by
  intro w hw
  have hx := hx w hw
  rcases hr : x w with ⟨a | e | _, w'⟩
  · rwa [hr] at hx
  · exact absurd (by rw [hr]) (hfail w e)
  · rwa [hr] at hx

/-- The level is still 0 when a statement has been sent. -/
theorem runCommand_outside (cmd : Command) (rawSql : String)
    (call : Link → String → List Value → σ → Outcome α × σ) :
    Meets (fun _ => False) (fun _ => True) (fun w => w.session.level = 0)
      (c.runCommand cmd rawSql call) fun _ w => w.session.level = 0 := by
  have hlevel : Keeps (fun w => w.session.level = 0) (fun w => w.session.level = 0)
      (c.runCommand cmd rawSql call) :=
    .of_after fun w hw => (Reach.level (runCommand_walks cmd rawSql call w) rfl).trans hw
  exact (meets_unfailing hlevel (runCommand_unfailing _ _ _)).mono (fun _ h => h) (fun _ _ h => h)
    (fun _ h => h) fun _ _ => trivial

/-- A step that does nothing to the session. -/
theorem meets_session {x : Run σ α} {J : RunState σ → Prop} {P : Session → Prop} (hx : IsQuiet x)
    (hfail : Unfailing x) (hJ : ∀ w, J w) :
    Meets (fun _ => False) J (fun w => P w.session) x fun _ w => P w.session := by
  refine meets_unfailing (I := fun _ => True)
    (Meets.quiet hx ?_ (fun _ _ => trivial) fun w _ => hJ w) hfail
  exact fun w w' hq h => by rwa [hq.session]

theorem settle_empties (hauto : c.connection.config.autoRelease = true) (cmd : Command)
    (executed : Executed) : Empties (fun w => w.session.level = 0) (c.settle cmd executed) := by
  refine Meets.bind (R := fun _ w => w.session.level = 0) (.modify fun _ h => h) fun _ => ?_
  split
  · exact Meets.bind (R := fun _ w => w.session.level = 0) (.modify fun _ h => h) fun _ =>
      release_empties hauto false
  · exact release_empties hauto false

theorem execute_empties (hauto : c.connection.config.autoRelease = true) (cmd : Command) :
    Empties (fun w => w.session.level = 0 ∧ w.session.held = []) (c.execute cmd) := by
  refine (meets_session (P := fun s => s.level = 0 ∧ s.held = []) (logQuery_quiet _)
    (logQuery_unfailing _) fun _ => trivial).bind fun _ => ?_
  refine .ite (fun _ => .pure fun _ h => h.2) fun _ => Meets.of_imp (fun _ h => h.1) ?_
  refine (runCommand_outside cmd _ _).bind fun r => ?_
  dsimp only
  split
  · exact (release_empties hauto false).bind fun _ => .pure fun _ h => h
  · exact (settle_empties hauto _ _).bind fun _ => .pure fun _ h => h

theorem fetchCached_empties (hauto : c.connection.config.autoRelease = true) (cmd : Command)
    (method rawSql : String) :
    Empties (fun w => w.session.level = 0 ∧ w.session.held = [])
      (c.fetchCached cmd method rawSql) := by
  refine (meets_session (P := fun s => s.level = 0 ∧ s.held = []) (cachedRows_quiet cmd _)
    (cachedRows_unfailing cmd _) fun _ => trivial).bind fun cached => ?_
  split
  · refine (meets_session (P := fun s => s.level = 0 ∧ s.held = []) (logQuery_quiet _)
      (logQuery_unfailing _) fun _ => trivial).bind fun _ => .pure fun _ h => h.2
  · refine (meets_session (P := fun s => s.level = 0 ∧ s.held = []) (logQuery_quiet _)
      (logQuery_unfailing _) fun _ => trivial).bind fun _ => Meets.of_imp (fun _ h => h.1) ?_
    refine (runCommand_outside cmd rawSql _).bind fun r => ?_
    refine (release_empties hauto false).bind fun _ => ?_
    split
    · exact .pure fun _ h => h
    · exact (meets_session (P := fun s => s.held = []) (storeRows_quiet cmd _ _)
        (storeRows_unfailing cmd _ _) fun _ => trivial).bind fun _ => .pure fun _ h => h

theorem fetchAs_empties (hauto : c.connection.config.autoRelease = true) (method : String)
    (f : List Row → Result β) (cmd : Command) :
    Empties (fun w => w.session.level = 0 ∧ w.session.held = []) (c.fetchAs method f cmd) := by
  have hfetch : Empties (fun w => w.session.level = 0 ∧ w.session.held = [])
      (c.fetchRows cmd method) := by
    refine .ite (fun _ => ?_) fun _ => fetchCached_empties hauto cmd method _
    refine Meets.bind (R := fun _ w => w.session.level = 0 ∧ w.session.held = [])
      (fun _ h => h) fun ticket => ?_
    split
    · refine ((fetchCached_empties hauto cmd method _).onCancel fun _ _ => trivial).bind fun _ => ?_
      exact Meets.bind (R := fun _ w => w.session.held = []) (.modify fun _ h => h) fun _ =>
        .pure fun _ h => h
    · refine Meets.bind (R := fun _ w => w.session.level = 0 ∧ w.session.held = [])
        (fun _ h => h) fun flight => ?_
      split
      · exact .pure fun _ h => h.2
      · exact fetchCached_empties hauto cmd method _
      · exact .cancel fun _ _ => trivial
  exact hfetch.bind fun _ => .pure fun _ h => h

end Client

/-! ## Runs -/

namespace Session

open Client

variable {σ α : Type} {c : Client σ} {w : RunState σ}

theorem Call.empties (hauto : c.connection.config.autoRelease = true) {k : Call α}
    (hk : k.command?.isSome) :
    Empties (fun w => w.session.level = 0 ∧ w.session.held = []) (k.run c) := by
  cases k with
  | execute cmd => exact execute_empties hauto cmd
  | fetch method f cmd => exact fetchAs_empties hauto method f cmd
  | _ => simp [Call.command?] at hk

/-- A command that starts with nothing held outside a transaction ends with nothing held. -/
theorem Visit.empties (hauto : c.connection.config.autoRelease = true) {v : Visit σ}
    (hv : v.call.command?.isSome) (hlevel : v.before.session.level = 0)
    (hheld : v.before.session.held = []) (hending : v.ending c ≠ .pending) :
    (v.after c).session.held = [] := by
  have hempties : Run.Meets (fun w => w.session.held = []) (fun _ => True) (fun w => w = v.before)
      (v.call.run c) fun _ w => w.session.held = [] := by
    refine ((Call.empties hauto hv).of_failed fun _ h => h.elim).of_imp ?_
    rintro _ rfl
    exact ⟨hlevel, hheld⟩
  exact Visit.of_returned hempties hending

/-- The accounts of a state: each pool balances, connections are taken once and given back to where
they came from, and the two that may be held are from servers of their ranks. -/
structure Balanced (c : Client σ) (w : RunState σ) : Prop where
  balance : ∀ id, Journal.acquisitions id w.journal
    = Journal.releases id w.journal + Journal.discards id w.journal + ofPool id w.session.held
  fair : w.journal.Fair
  master : ∀ link ∈ w.session.master, link.pool ∈ c.connection.mains
  replica : ∀ link ∈ w.session.replica, link.pool ∈ c.connection.replicas

theorem Accounts.balanced (h : Accounts c w) : Balanced c w where
  balance id := by
    rw [h.fair.balance id, ofPool, h.out.countP_eq, ofPool]
  fair := h.fair
  master := h.master
  replica := h.replica

theorem Passes.accounts {enabled cut : Bool} {w' : RunState σ} {vs : List (Visit σ)}
    (h : Passes c enabled w vs cut w') (hw : Accounts c w) : Accounts c w' :=
  h.keeps (fun _ _ ha h => h.aside ha) (fun v _ _ h => h.reach (v.reach c)) hw

/-- In every run of a session the accounts balance before and after each call, at the end and when
the session has been dropped; then it holds nothing. Where connections are released automatically, a
command that starts with nothing held outside a transaction ends with nothing held, unless it is
cancelled. -/
theorem Script.run_accounts (c : Client σ) (p : Script σ α) (start : RunState σ) :
    let w := start.opened c.connection
    (∀ v ∈ p.visits c false w, Balanced c v.before ∧ Balanced c (v.after c)) ∧
      Balanced c (p.run c w).2 ∧
      (∃ w', c.drop (p.run c w).2 = (.done (), w') ∧ Balanced c w' ∧ w'.session.held = []) ∧
      (c.connection.config.autoRelease = true → ∀ v ∈ p.visits c false w,
        v.call.command?.isSome → v.before.session.level = 0 → v.before.session.held = [] →
          v.ending c ≠ .pending → (v.after c).session.held = []) := by
  intro w
  have hw : Accounts c w := .opened c start
  have hpasses := (p.passed c w).passes
  have hend : Accounts c (p.run c w).2 := hpasses.accounts hw
  refine ⟨fun v hv => ?_, hend.balanced, ?_, fun hauto v _ => v.empties hauto⟩
  · obtain ⟨earlier, later, hvisits⟩ := List.append_of_mem hv
    rw [hvisits] at hpasses
    have hbefore : Accounts c v.before := hpasses.visit.1.accounts hw
    exact ⟨hbefore.balanced, (hbefore.reach (v.reach c)).balanced⟩
  · obtain ⟨w', hdrop, hheld, -⟩ := drop_eq (c := c) (p.run c w).2
    have hwalk := drop_walks (c := c) (p.run c w).2
    rw [hdrop] at hwalk
    exact ⟨w', hdrop, (hend.reach hwalk).balanced, hheld⟩

end Session

end QueryKit
