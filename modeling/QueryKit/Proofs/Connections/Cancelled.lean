import QueryKit.Proofs.Connections.Turns

/-!
# Sessions that end after a call was cancelled

- `Journal.MayBeOpen`: a transaction may be open on a connection, as far as its statements tell.
- `Session.Settled`: no transaction may be open on the master connection of a session at level 0. All
  calls keep this that are not cancelled (`Passes.settled`).
- `Visit.level_of_pending`: the level at which a cancelled call leaves the session.
- `Script.run_cancelled`: what becomes of the master connection when the session ends then. One on
  which a transaction may be open is given back to its pool if the call was to begin or to end the
  outermost level, for the level is changed after `BEGIN` and before `COMMIT` and `ROLLBACK`;
  otherwise it is closed.
-/

namespace QueryKit

/-- The statements that a transaction begins with: `BEGIN`, and the one for the isolation level. -/
def Dialect.Begins (d : Dialect) (sql : String) : Prop :=
  ∃ isolation statements, Client.beginStatements d isolation = .ok statements ∧ sql ∈ statements

/-- What is sent for the command is no statement that a transaction begins with. -/
def Command.BeginsNothing (conn : Connection) (cmd : Command) : Prop :=
  ∀ p, cmd.preparation conn = .ok p → ¬ conn.dialect.Begins p.sql

namespace Journal

/-- A statement that a transaction begins with was sent on the connection, and since then neither
`COMMIT` nor `ROLLBACK` is known to have run. -/
def MayBeOpen (d : Dialect) (j : Journal) (link : Link) : Prop :=
  ∃ later sql values ending earlier, j = later ++ .sent link sql values ending :: earlier ∧
    d.Begins sql ∧ ∀ text vs, .sent link text vs .done ∈ later → text ≠ "COMMIT" ∧ text ≠ "ROLLBACK"

variable {d : Dialect} {j : Journal} {link : Link} {e : Event}

theorem MayBeOpen.of_cons (h : MayBeOpen d (e :: j) link)
    (he : e.Sent fun sql _ => ¬ d.Begins sql) : MayBeOpen d j link := by
  obtain ⟨later, sql, values, ending, earlier, hj, hbegins, hopen⟩ := h
  cases later with
  | nil =>
    cases hj
    exact absurd hbegins he
  | cons _ later =>
    cases hj
    exact ⟨later, sql, values, ending, earlier, rfl, hbegins, fun text vs hmem =>
      hopen text vs (List.mem_cons_of_mem _ hmem)⟩

theorem MayBeOpen.of_logs {logs : List Event} (h : MayBeOpen d (logs ++ j) link)
    (hlogs : ∀ e ∈ logs, ∃ level text, e = .logged level text) : MayBeOpen d j link := by
  induction logs with
  | nil => exact h
  | cons e logs ih =>
    obtain ⟨level, text, rfl⟩ := hlogs e List.mem_cons_self
    exact ih (h.of_cons trivial) fun e he => hlogs e (List.mem_cons_of_mem _ he)

/-- Nothing can be open on a connection on which nothing was sent. -/
theorem not_mayBeOpen (h : ∀ sql values ending, .sent link sql values ending ∉ j) :
    ¬ MayBeOpen d j link := by
  rintro ⟨later, sql, values, ending, earlier, rfl, -⟩
  exact h sql values ending (List.mem_append_right _ List.mem_cons_self)

end Journal

namespace Session

open Run Client

variable {σ α : Type} {c : Client σ} {k : Permit} {w w' : RunState σ} {v : Visit σ}

/-- No transaction may be open on the master connection of a session at level 0. -/
def Settled (c : Client σ) (w : RunState σ) : Prop :=
  w.session.level = 0 → ∀ link ∈ w.session.master, ¬ w.journal.MayBeOpen c.connection.dialect link

theorem settled_of_none (h : w.session.master = none) : Settled c w := by
  intro _ link hl
  rw [h] at hl
  cases hl

/-- Nothing happens to the master connection, and no transaction is begun. -/
theorem Settled.of_event (h : Settled c w) {e : Event} (hj : w'.journal = e :: w.journal)
    (hmaster : w'.session.master = w.session.master) (hlevel : w'.session.level = w.session.level)
    (he : e.Sent fun sql _ => ¬ c.connection.dialect.Begins sql) : Settled c w' := by
  intro hzero link hl hopen
  rw [hj] at hopen
  exact h (hlevel ▸ hzero) link (hmaster ▸ hl) (hopen.of_cons he)

theorem Settled.of_logs (h : Settled c w) {logs : List Event} (hj : w'.journal = logs ++ w.journal)
    (hmaster : w'.session.master = w.session.master) (hlevel : w'.session.level = w.session.level)
    (hlogs : ∀ e ∈ logs, ∃ level text, e = .logged level text) : Settled c w' := by
  intro hzero link hl hopen
  rw [hj] at hopen
  exact h (hlevel ▸ hzero) link (hmaster ▸ hl) (hopen.of_logs hlogs)

theorem Settled.quiet (h : Settled c w) (hq : Quiet w w') : Settled c w' := by
  obtain ⟨logs, hj, hlogs⟩ := hq.journal
  exact h.of_logs hj (by rw [hq.session]) (by rw [hq.session]) hlogs

theorem Settled.aside (h : Settled c w) (ha : Aside w w') : Settled c w' := by
  obtain ⟨logs, hj, hlogs⟩ := ha.journal
  exact h.of_logs hj ha.master ha.level hlogs

/-- A move that neither changes the level nor begins a transaction. -/
theorem Settled.move (h : Settled c w) (haccounts : Accounts c w) (hmove : c.Move k w w')
    (hturns : k.turns = false) (htexts : ∀ sql, k.texts sql → ¬ c.connection.dialect.Begins sql) :
    Settled c w' := by
  cases hmove with
  | quiet hq => exact h.quiet hq
  | openMaster _ _ =>
    refine fun _ link hl => Journal.not_mayBeOpen fun sql values ending hmem => ?_
    -- The number of the new connection is on none that was known.
    cases hl
    rcases List.mem_cons.mp hmem with heq | hmem
    · cases heq
    · exact Nat.lt_irrefl _ (haccounts.number_lt _ hmem _ rfl)
  | openReplica _ _ => exact h.of_event rfl rfl rfl trivial
  | sendMaster values ending servers _ htext => exact h.of_event rfl rfl rfl (htexts _ htext)
  | sendReplica values ending servers _ htext => exact h.of_event rfl rfl rfl (htexts _ htext)
  | releaseMaster _ _ => exact settled_of_none rfl
  | discardMaster _ _ => exact settled_of_none rfl
  | releaseReplica _ => exact h.of_event rfl rfl rfl trivial
  | discardReplica _ => exact h.of_event rfl rfl rfl trivial
  | adjust hmaster _ _ hlevel =>
    refine h.of_logs (List.nil_append _).symm hmaster ?_ nofun
    exact Decidable.byContradiction fun hne => Bool.eq_false_iff.mp hturns (hlevel hne)

theorem Settled.reach (h : Settled c w) (haccounts : Accounts c w) (hreach : c.Reach k w w')
    (hturns : k.turns = false) (htexts : ∀ sql, k.texts sql → ¬ c.connection.dialect.Begins sql) :
    Settled c w' := by
  induction hreach with
  | refl => exact h
  | tail hreach hmove ih => exact ih.move (haccounts.reach hreach) hmove hturns htexts

/-! ## Calls -/

/-- The command that is run, if the call runs one, begins no transaction. -/
def Visit.BeginsNothing (c : Client σ) (v : Visit σ) : Prop :=
  ∀ cmd ∈ v.call.command?, cmd.BeginsNothing c.connection

/-- What calls may do that are no operations on transactions and do not close the session. -/
theorem Call.permit_plain {conn : Connection} {k : Call α} (hturn : k.isTurn = false)
    (hclose : k.isClose = false) (hplain : ∀ cmd ∈ k.command?, cmd.BeginsNothing conn) :
    (k.permit conn).turns = false ∧
      ∀ sql, (k.permit conn).texts sql → ¬ conn.dialect.Begins sql := by
  cases k with
  | execute cmd =>
    refine ⟨rfl, ?_⟩
    rintro _ ⟨p, hp, rfl⟩
    exact hplain cmd rfl p hp
  | fetch method f cmd =>
    refine ⟨rfl, ?_⟩
    rintro _ ⟨p, hp, rfl⟩
    exact hplain cmd rfl p hp
  | tableSchema | release | reconnect => exact ⟨rfl, fun _ h => h.elim⟩
  | close => cases hclose
  | begin | commit | rollBack | setIsolationLevel => cases hturn

/-- A call that is no operation on transactions keeps a session settled, even if it is cancelled. -/
theorem Visit.settled_other (h : Settled c v.before) (haccounts : Accounts c v.before)
    (hplain : v.BeginsNothing c) (hturn : v.call.isTurn = false) : Settled c (v.after c) := by
  cases hclose : v.call.isClose with
  | true => exact settled_of_none (Call.closes hclose v.before).2.2.1
  | false =>
    obtain ⟨hturns, htexts⟩ := Call.permit_plain hturn hclose hplain
    exact h.reach haccounts (v.reach c) hturns htexts

theorem Visit.settled (h : Settled c v.before) (haccounts : Accounts c v.before)
    (hplain : v.BeginsNothing c) (hending : v.ending c ≠ .pending) : Settled c (v.after c) := by
  cases hturn : v.call.isTurn with
  | true =>
    rcases v.turned hturn hending with hfinished | hquiet | ⟨n, ran, hunderway, -⟩
    · exact settled_of_none hfinished.master
    · exact h.quiet hquiet
    · exact fun hzero => absurd (hunderway.level.symm.trans hzero) (Nat.succ_ne_zero n)
  | false => exact v.settled_other h haccounts hplain hturn

theorem Passes.settled {enabled : Bool} {vs : List (Visit σ)} (h : Passes c enabled w vs false w')
    (hplain : ∀ v ∈ vs, v.BeginsNothing c) (haccounts : Accounts c w) (hw : Settled c w) :
    Accounts c w' ∧ Settled c w' := by
  refine h.keeps (I := fun w => Accounts c w ∧ Settled c w)
    (fun _ _ ha h => ⟨h.1.aside ha, h.2.aside ha⟩) (fun v hv hending h => ?_) ⟨haccounts, hw⟩
  refine ⟨h.1.reach (v.reach c), v.settled h.2 h.1 (hplain v hv) fun hpending => ?_⟩
  cases hending hpending

/-- The level at which a cancelled call leaves a session. -/
theorem Visit.level_of_pending (hending : v.ending c = .pending) :
    (v.after c).session.level = v.call.levelLeft v.before.session.level := by
  cases hturn : v.call.isTurn with
  | true => exact (v.underway hturn hending).level
  | false =>
    have hleft := v.call.levelLeft_other hturn v.before.session.level
    cases hclose : v.call.isClose with
    | true =>
      exact absurd (Visit.ending_eq_pending.mp hending)
        (Bool.eq_false_iff.mp (Call.closes hclose v.before).1)
    | false => exact ((v.reach c).level (Call.permit_turns hturn hclose)).trans hleft.symm

theorem Call.levelLeft_outermost {k : Call α} {level : Nat}
    (h : (k.isBegin = true ∧ level = 0) ∨ (k.isEnd = true ∧ level = 1)) :
    k.levelLeft level = 0 := by
  rcases h with ⟨-, rfl⟩ | ⟨hend, rfl⟩
  · unfold levelLeft
    split <;> rfl
  · rw [levelLeft, if_pos hend]

/-- If a cancelled call leaves a session at level 0 with a connection on which a transaction may be
open, it was to begin or to end the outermost level. -/
theorem Visit.outermost_of_pending {link : Link} (h : Settled c v.before)
    (haccounts : Accounts c v.before) (hplain : v.BeginsNothing c) (hending : v.ending c = .pending)
    (hzero : (v.after c).session.level = 0) (hmaster : (v.after c).session.master = some link)
    (hopen : (v.after c).journal.MayBeOpen c.connection.dialect link) :
    (v.call.isBegin = true ∧ v.before.session.level = 0) ∨
      (v.call.isEnd = true ∧ v.before.session.level = 1) := by
  cases hturn : v.call.isTurn with
  | false => exact absurd hopen (v.settled_other h haccounts hplain hturn hzero link hmaster)
  | true =>
    have hleft := v.level_of_pending hending
    rw [hzero, Call.levelLeft] at hleft
    by_cases hlevel : v.before.session.level = 0
    · refine .inl ⟨?_, hlevel⟩
      cases hbegin : v.call.isBegin with
      | true => rfl
      | false =>
        exact absurd (Visit.ending_eq_pending.mp hending)
          (Bool.eq_false_iff.mp (Call.turned_outside hturn hbegin hlevel))
    · split at hleft
      · next hend => exact .inr ⟨hend, by omega⟩
      · exact absurd hleft.symm hlevel

/-! ## The end of a session -/

/-- What happens when a session ends. -/
def dropEvents (c : Client σ) (w : RunState σ) : List Event :=
  (c.drop w).2.journal.since w.journal.length

/-- A connection that is held goes back to its pool at level 0, and is closed at any other. -/
theorem mem_dropEvents {link : Link} (h : link ∈ w.session.held) :
    (.released link ∈ dropEvents c w ↔ w.session.level = 0) ∧
      (.discarded link ∈ dropEvents c w ↔ w.session.level ≠ 0) := by
  obtain ⟨w', hdrop, -, logs, hlogs, hj⟩ := drop_eq (c := c) w
  have hmem : ∀ e, e ∈ dropEvents c w ↔
      e ∈ (w.session.replica.toList ++ w.session.master.toList).map (parting w.session) ∨
        e ∈ logs := by
    intro e
    rw [dropEvents, hdrop, hj, ← List.append_assoc, Journal.mem_since, List.mem_append]
  have hparting : parting w.session link ∈ dropEvents c w := by
    refine (hmem _).mpr (.inl (List.mem_map_of_mem ?_))
    exact List.mem_append.mpr (List.mem_append.mp h).symm
  have hother : ∀ e ∈ dropEvents c w, e.link? = some link → e = parting w.session link := by
    intro e he hlink
    rcases (hmem e).mp he with he | he
    · obtain ⟨l, -, rfl⟩ := List.mem_map.mp he
      unfold parting at hlink ⊢
      split at hlink <;> cases hlink <;> rfl
    · obtain ⟨level, text, rfl⟩ := hlogs e he
      cases hlink
  unfold parting at hparting hother
  split at hparting
  · next hzero =>
    rw [if_pos hzero] at hother
    refine ⟨⟨fun _ => hzero, fun _ => hparting⟩, fun he => ?_, fun hne => absurd hzero hne⟩
    cases hother _ he rfl
  · next hne =>
    rw [if_neg hne] at hother
    refine ⟨⟨fun he => ?_, fun hzero => absurd hzero hne⟩, fun _ => hne, fun _ => hparting⟩
    cases hother _ he rfl

/-- When a run is cancelled, its last call is. When the session ends then, its master connection
goes back to the pool if the cancelled call has left the session at level 0, and is closed otherwise.
If a transaction may be open on it, and no command has begun one, it goes back if and only if the
call was to begin the outermost level or to end it. -/
theorem Script.run_cancelled (c : Client σ) (p : Script σ α) (start : RunState σ) :
    let w := start.opened c.connection
    let w' := (p.run c w).2
    (p.run c w).1.isCancelled = true →
      ∃ earlier v, p.visits c false w = earlier ++ [v] ∧ v.ending c = .pending ∧
        ∀ link, w'.session.master = some link →
          (.released link ∈ dropEvents c w' ↔
            v.call.levelLeft v.before.session.level = 0) ∧
          (.discarded link ∈ dropEvents c w' ↔
            v.call.levelLeft v.before.session.level ≠ 0) ∧
          ((∀ u ∈ p.visits c false w, u.BeginsNothing c) →
            w'.journal.MayBeOpen c.connection.dialect link →
              (.released link ∈ dropEvents c w' ↔
                (v.call.isBegin = true ∧ v.before.session.level = 0) ∨
                  (v.call.isEnd = true ∧ v.before.session.level = 1))) := by
  intro w w' hcancelled
  have hpasses := (p.passed c w).passes
  obtain ⟨hcut, hlast⟩ := hpasses.cut_iff
  obtain ⟨v, hv, hending⟩ := hcut.mp hcancelled
  obtain ⟨earlier, later, hvisits⟩ := List.append_of_mem hv
  obtain ⟨rfl, hafter⟩ := hlast earlier v later hvisits hending
  refine ⟨earlier, v, hvisits, hending, fun link hmaster => ?_⟩
  change (v.after c) = w' at hafter
  rw [← hafter] at hmaster ⊢
  have hheld : link ∈ (v.after c).session.held := by simp [held, hmaster]
  obtain ⟨hreleased, hdiscarded⟩ := mem_dropEvents (c := c) hheld
  rw [← v.level_of_pending hending]
  refine ⟨hreleased, hdiscarded, fun hplain hopen => hreleased.trans ⟨fun hzero => ?_, ?_⟩⟩
  · -- All calls before the last one have returned, so it found the session settled.
    have hearlier := (hvisits ▸ hpasses).visit.1
    obtain ⟨haccounts, hsettled⟩ := hearlier.settled
      (fun u hu => hplain u (hvisits ▸ List.mem_append_left _ hu)) (.opened c start)
      (settled_of_none rfl)
    exact v.outermost_of_pending hsettled haccounts (hplain v hv) hending hzero hmaster hopen
  · rw [v.level_of_pending hending]
    exact Call.levelLeft_outermost

/-- The client of a rehearsal whose caller goes away while `BEGIN` runs. -/
def interrupted : Client Recorder :=
  { rehearsal with
    backend := { rehearsal.backend with
      execute := fun link sql values servers =>
        if sql = "BEGIN" then (.cancelled, servers)
        else rehearsal.backend.execute link sql values servers } }

/-- A transaction is begun, and the caller goes away. -/
def interruptedBegin : Outcome Unit × RunState Recorder :=
  (Script.call (.begin none)).run interrupted (rehearsalState.opened interrupted.connection)

/-- The connection goes back to its pool, though a transaction may be open on it. -/
theorem interruptedBegin_released : interruptedBegin.1.isCancelled = true ∧
    ∃ link, interruptedBegin.2.session.master = some link ∧
      interruptedBegin.2.journal.MayBeOpen .postgres link ∧
      .released link ∈ dropEvents interrupted interruptedBegin.2 := by
  obtain ⟨earlier, v, hvisits, -, hdrop⟩ :=
    Script.run_cancelled interrupted (.call (.begin none)) rehearsalState rfl
  let link : Link := ⟨⟨.primary, "postgres://db"⟩, 0⟩
  obtain ⟨-, -, hreleased⟩ := hdrop link rfl
  have hopen : interruptedBegin.2.journal.MayBeOpen .postgres link :=
    ⟨[], "BEGIN", [], .pending, _, rfl, ⟨none, ["BEGIN"], rfl, List.mem_singleton_self _⟩, nofun⟩
  refine ⟨rfl, link, rfl, hopen, (hreleased (fun u hu => ?_) hopen).mpr (.inl ?_)⟩
  · cases List.mem_singleton.mp hu
    exact nofun
  · have hv : v ∈ earlier ++ [v] := List.mem_append_right _ List.mem_cons_self
    rw [← hvisits] at hv
    cases List.mem_singleton.mp hv
    exact ⟨rfl, rfl⟩

end Session

end QueryKit
