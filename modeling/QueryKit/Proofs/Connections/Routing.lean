import QueryKit.Proofs.Connections.Turns

/-!
# Where statements go

- `Visit.routes`: a call sends its statements to servers that take writes, but for reads outside
  transactions and outside `useMaster`.
- `Visit.sendsOn_turn`: an operation on transactions uses one connection.
- `Visit.stays`, `Visit.begins`: inside a transaction a call uses the connection that is held; one
  that enters a transaction has run `BEGIN` on it.
- `Session.InTransaction`: the transaction that a session is in was begun by an earlier call, and
  all statements since then went to the connection of its `BEGIN`.
- `Script.run_routes`: these are facts of every run without explicit reconnects, and replicas are
  left switched as they were.
-/

namespace QueryKit

/-- The servers of one kind that a connection is built with have names of that kind. -/
theorem Connection.mem_numberedPools {id : Nat → PoolId} {dsns : List String} {pool : Pool}
    (h : pool ∈ numberedPools id dsns) : ∃ i, pool.id = id i := by
  obtain ⟨⟨dsn, i⟩, -, rfl⟩ := List.mem_map.mp h
  exact ⟨i, rfl⟩

/-- No server that takes writes is a replica. -/
theorem Connection.not_mem_replicas {parts : ConnectionParts} {conn : Connection}
    (hbuild : Connection.build parts = .ok conn) {pool : Pool} (h : pool ∈ conn.mains) :
    pool ∉ conn.replicas := by
  unfold Connection.build at hbuild
  simp only [Bind.bind, Except.bind] at hbuild
  split at hbuild
  · cases hbuild
  · split at hbuild
    · cases hbuild
    · cases hbuild
      intro hreplica
      obtain ⟨i, hi⟩ := mem_numberedPools hreplica
      rcases List.mem_append.mp h with h | h
      · obtain ⟨dsn, -, rfl⟩ := Option.map_eq_some_iff.mp (Option.mem_toList.mp h)
        cases hi
      · obtain ⟨m, hm⟩ := mem_numberedPools h
        cases hm.symm.trans hi

namespace Session

open Run Client

variable {σ α : Type} {c : Client σ} {k : Permit} {w w' : RunState σ} {link : Link} {v : Visit σ}

/-! ## One call -/

/-- What is permitted to a call that is no command. -/
theorem Call.permit_reads {conn : Connection} {k : Call α} (h : (k.permit conn).reads = true) :
    (k.permit conn).turns = false ∧
      ∃ cmd, k.command? = some cmd ∧ isReadStatement cmd.sql = true := by
  cases k with
  | execute cmd => exact ⟨rfl, cmd, rfl, h⟩
  | fetch method f cmd => exact ⟨rfl, cmd, rfl, h⟩
  | _ => cases h

/-- A call sends its statements to servers that take writes. Only a command that reads may send its
own to a replica, outside transactions and while replicas are switched on. -/
theorem Visit.routes (haccounts : Accounts c v.before) {sql : String} {values : List Value}
    {ending : Ending} (hsent : .sent link sql values ending ∈ v.events c) :
    link.pool ∈ c.connection.mains ∨ ((∃ cmd, v.call.command? = some cmd ∧
      isReadStatement cmd.sql = true) ∧ v.before.session.level = 0 ∧
        v.before.session.replicasEnabled = true) := by
  have hsends := Reach.sends (P := fun l _ => l.pool ∈ c.connection.mains ∨
    ((v.call.permit c.connection).reads = true ∧ v.before.session.level = 0 ∧
      v.before.session.replicasEnabled = true)) (v.reach c) fun w₁ l sql hreach _ hserves => ?_
  · obtain ⟨new, hj, hnew⟩ := hsends
    refine (hnew link sql values ending ((Visit.mem_events hj).mp hsent)).imp_right ?_
    exact fun ⟨hreads, hrest⟩ => ⟨(Call.permit_reads hreads).2, hrest⟩
  · rcases hserves with hmaster | ⟨hreads, hlevel, henabled, -⟩
    · exact .inl ((haccounts.reach hreach).master l hmaster)
    · rw [Reach.level hreach (Call.permit_reads hreads).1] at hlevel
      rw [Reach.replicasEnabled hreach] at henabled
      exact .inr ⟨hreads, hlevel, henabled⟩

/-- All statements of a call were sent on a connection. -/
def Visit.SendsOn (c : Client σ) (link : Link) (v : Visit σ) : Prop :=
  ∀ l sql values ending, .sent l sql values ending ∈ v.events c → l = link

theorem Visit.sendsOn_of {new : List Event} (hj : (v.after c).journal = new ++ v.before.journal)
    (h : ∀ l sql values ending, .sent l sql values ending ∈ new → l = link) :
    v.SendsOn c link :=
  fun l sql values ending hmem => h l sql values ending ((Visit.mem_events hj).mp hmem)

/-- An operation on transactions uses one connection at most: the one that is held, if there is one.
Unless it leaves the session outside transactions, that connection stays. -/
theorem Visit.turn_sends (hturn : v.call.isTurn = true) :
    ∃ new used, (v.after c).journal = new ++ v.before.journal ∧
      (∀ link sql values ending, .sent link sql values ending ∈ new → used = some link) ∧
      ∀ link ∈ v.before.session.master, used = some link ∧
        ((v.after c).session.level ≠ 0 → (v.after c).session.master = some link) := by
  have hunderway : ∀ {n ran}, Underway v.before.session.master v.before.journal n ran (v.after c) →
      ∃ new used, (v.after c).journal = new ++ v.before.journal ∧
        (∀ link sql values ending, .sent link sql values ending ∈ new → used = some link) ∧
        ∀ link ∈ v.before.session.master, used = some link ∧
          ((v.after c).session.level ≠ 0 → (v.after c).session.master = some link) := by
    intro n ran h
    obtain ⟨new, hj, hsent, -⟩ := h.sends
    exact ⟨new, _, hj, hsent, fun link hl => ⟨h.kept link hl, fun _ => h.kept link hl⟩⟩
  by_cases hpending : v.ending c = .pending
  · exact hunderway (v.underway hturn hpending)
  rcases v.turned hturn hpending with hfinished | hquiet | ⟨n, ran, h, -⟩
  · obtain ⟨new, used, hj, hheld, hsent⟩ := hfinished.sends
    exact ⟨new, used, hj, hsent, fun link hl => ⟨hheld link hl, fun h => absurd hfinished.level h⟩⟩
  · obtain ⟨more, hj, hmore⟩ := hquiet.silent
    exact ⟨more, _, hj, fun link sql values ending hmem => (hmore _ hmem).elim,
      fun link hl => ⟨hl, fun _ => by rwa [hquiet.session]⟩⟩
  · exact hunderway h

/-- An operation on transactions sends all its statements on one connection, even if it fails or is
cancelled on its way. -/
theorem Visit.sendsOn_turn (hturn : v.call.isTurn = true) : ∃ link, v.SendsOn c link := by
  obtain ⟨new, used, hj, hsent, -⟩ := v.turn_sends (c := c) hturn
  cases used with
  | some link =>
    exact ⟨link, sendsOn_of hj fun l sql values ending hmem =>
      (Option.some.inj (hsent l sql values ending hmem)).symm⟩
  | none =>
    -- Nothing was sent, so any connection will do.
    exact ⟨⟨⟨.primary, ""⟩, 0⟩, sendsOn_of hj fun l sql values ending hmem =>
      nomatch hsent l sql values ending hmem⟩

/-- Inside a transaction all statements of a call go to the connection that is held, and that
connection is held until the transaction has ended. -/
theorem Visit.stays (hreconnect : v.call.isReconnect = false)
    (hlevel : v.before.session.level ≠ 0) (hmaster : v.before.session.master = some link) :
    v.SendsOn c link ∧
      ((v.after c).session.level ≠ 0 → (v.after c).session.master = some link) := by
  cases hturn : v.call.isTurn with
  | true =>
    obtain ⟨new, used, hj, hsent, hheld⟩ := v.turn_sends (c := c) hturn
    obtain ⟨hused, hstays⟩ := hheld link hmaster
    refine ⟨sendsOn_of hj fun l sql values ending hmem => ?_, hstays⟩
    exact Option.some.inj ((hsent l sql values ending hmem).symm.trans hused)
  | false =>
    cases hclose : v.call.isClose with
    | true =>
      obtain ⟨-, hzero, -, new, hj, hsent⟩ := Call.closes (c := c) hclose v.before
      exact ⟨sendsOn_of hj fun l sql values ending hmem => absurd hmem (hsent l sql values ending),
        fun h => absurd hzero h⟩
    | false =>
      have hturns : (v.call.permit c.connection).turns = false := Call.permit_turns hturn hclose
      have hparts : (v.call.permit c.connection).parts = false :=
        Call.permit_parts hturn hclose hreconnect
      obtain ⟨new, hj, hsent⟩ := (v.reach c).sends_master hturns hparts hlevel hmaster
      exact ⟨sendsOn_of hj hsent, fun _ => (v.reach c).master hturns hparts hlevel hmaster⟩

/-- A call after which a transaction is open that was not before has run `BEGIN` on the connection
that is held, and has used no other. -/
theorem Visit.begins (hlevel : v.before.session.level = 0)
    (hafter : (v.after c).session.level ≠ 0) :
    v.call.isBegin = true ∧ ∃ link, (v.after c).session.master = some link ∧ v.SendsOn c link ∧
      .sent link c.connection.dialect.beginSql [] .done ∈ v.events c := by
  cases hturn : v.call.isTurn with
  | true =>
    by_cases hpending : v.ending c = .pending
    · have hleft : v.call.levelLeft v.before.session.level = 0 := by
        rw [hlevel, Call.levelLeft]
        split <;> rfl
      exact absurd ((v.underway hturn hpending).level.trans hleft) hafter
    rcases v.turned hturn hpending with hfinished | hquiet | ⟨n, ran, hunderway, hbegun⟩
    · exact absurd hfinished.level hafter
    · rw [hquiet.session] at hafter
      exact absurd hlevel hafter
    · obtain ⟨hbegins, hran⟩ := hbegun hlevel
      obtain ⟨new, hj, hsent, hran'⟩ := hunderway.sends
      obtain ⟨link, hmaster, hmem⟩ := hran' _ hran
      refine ⟨hbegins, link, hmaster, sendsOn_of hj fun l sql values ending hmem => ?_,
        (Visit.mem_events hj).mpr hmem⟩
      exact Option.some.inj ((hsent l sql values ending hmem).symm.trans hmaster)
  | false =>
    cases hclose : v.call.isClose with
    | true => exact absurd (Call.closes (c := c) hclose v.before).2.1 hafter
    | false =>
      have hsame := (v.reach c).level (Call.permit_turns hturn hclose)
      exact absurd (hsame.trans hlevel) hafter

/-! ## Calls in a row -/

/-- The transaction that the session is in was begun by one of the calls, outside transactions.
Since then every call was made inside it, and all statements went to the connection on which `BEGIN`
ran. -/
def InTransaction (c : Client σ) (vs : List (Visit σ)) (link : Link) : Prop :=
  ∃ earlier u since, vs = earlier ++ u :: since ∧
    u.call.isBegin = true ∧ u.before.session.level = 0 ∧
    .sent link c.connection.dialect.beginSql [] .done ∈ u.events c ∧
    (∀ v ∈ since, v.before.session.level ≠ 0) ∧ ∀ v ∈ u :: since, v.SendsOn c link

/-- If the session is in a transaction, one of the calls has begun it. -/
def Begun (c : Client σ) (vs : List (Visit σ)) (w : RunState σ) : Prop :=
  w.session.level ≠ 0 → ∃ link, w.session.master = some link ∧ InTransaction c vs link

theorem InTransaction.snoc {vs : List (Visit σ)} (h : InTransaction c vs link)
    (hlevel : v.before.session.level ≠ 0) (hsends : v.SendsOn c link) :
    InTransaction c (vs ++ [v]) link := by
  obtain ⟨earlier, u, since, rfl, hbegin, hu, hsent, hlevels, hon⟩ := h
  refine ⟨earlier, u, since ++ [v], by simp, hbegin, hu, hsent, fun x hx => ?_, fun x hx => ?_⟩
  · rcases List.mem_append.mp hx with hx | hx
    · exact hlevels x hx
    · rw [List.mem_singleton.mp hx]
      exact hlevel
  · rw [← List.cons_append] at hx
    rcases List.mem_append.mp hx with hx | hx
    · exact hon x hx
    · rw [List.mem_singleton.mp hx]
      exact hsends

theorem Begun.aside {vs : List (Visit σ)} (h : Begun c vs w) (ha : Aside w w') : Begun c vs w' := by
  intro hlevel
  rw [ha.level] at hlevel
  rw [ha.master]
  exact h hlevel

theorem Begun.visit {vs : List (Visit σ)} (h : Begun c vs v.before)
    (hreconnect : v.call.isReconnect = false) : Begun c (vs ++ [v]) (v.after c) := by
  intro hafter
  by_cases hlevel : v.before.session.level = 0
  · obtain ⟨hbegin, link, hmaster, hsends, hsent⟩ := v.begins hlevel hafter
    have hnone : ∀ x ∈ ([] : List (Visit σ)), x.before.session.level ≠ 0 :=
      fun _ hx => absurd hx List.not_mem_nil
    refine ⟨link, hmaster, vs, v, [], rfl, hbegin, hlevel, hsent, hnone, fun x hx => ?_⟩
    rw [List.mem_singleton.mp hx]
    exact hsends
  · obtain ⟨link, hmaster, hin⟩ := h hlevel
    obtain ⟨hsends, hstays⟩ := v.stays hreconnect hlevel hmaster
    exact ⟨link, hstays hafter, hin.snoc hlevel hsends⟩

theorem Passes.begun {enabled cut : Bool} {vs : List (Visit σ)} (earlier : List (Visit σ))
    (h : Passes c enabled w vs cut w') (hreconnect : ∀ v ∈ vs, v.call.isReconnect = false)
    (hw : Begun c earlier w) : Begun c (earlier ++ vs) w' := by
  induction h generalizing earlier with
  | rest ha =>
    rw [List.append_nil]
    exact hw.aside ha
  | stop ha _ _ => exact (hw.aside ha).visit (hreconnect _ List.mem_cons_self)
  | @step w w' v vs cut ha _ _ _ ih =>
    have hv := (hw.aside ha).visit (hreconnect v List.mem_cons_self)
    have hrest := ih (earlier ++ [v]) (fun u hu => hreconnect u (List.mem_cons_of_mem _ hu)) hv
    rwa [List.append_assoc] at hrest

/-! ## Runs -/

/-- In a run without explicit reconnects, replicas are switched at each call as they were at first,
but for calls inside `useMaster`, and so they are at the end. A statement goes to a server that
takes writes, unless it belongs to a command that reads, outside transactions and outside
`useMaster`. An operation on transactions uses one connection, and inside a transaction every
statement goes to the connection on which `BEGIN` ran. -/
theorem Script.run_routes {parts : ConnectionParts} (c : Client σ)
    (hbuild : Connection.build parts = .ok c.connection) (p : Script σ α) (start : RunState σ)
    (hreconnect : ∀ v ∈ p.visits c false (start.opened c.connection),
      v.call.isReconnect = false) :
    let w := start.opened c.connection
    (∀ v ∈ p.visits c false w, ∀ link sql values ending, .sent link sql values ending ∈ v.events c →
      (link.pool ∈ c.connection.mains ∧ link.pool ∉ c.connection.replicas) ∨
        ((∃ cmd, v.call.command? = some cmd ∧ isReadStatement cmd.sql = true) ∧
          v.before.session.level = 0 ∧ v.mainOnly = false)) ∧
    (∀ v ∈ p.visits c false w, v.call.isTurn = true → ∃ link, v.SendsOn c link) ∧
    (∀ earlier v later, p.visits c false w = earlier ++ v :: later →
      v.before.session.level ≠ 0 →
        ∃ link, InTransaction c earlier link ∧ v.SendsOn c link) ∧
    (∀ v ∈ p.visits c false w,
      v.before.session.replicasEnabled = (c.connection.config.enableSlaves && !v.mainOnly)) ∧
    ((p.run c w).1.isCancelled = false →
      (p.run c w).2.session.replicasEnabled = c.connection.config.enableSlaves) ∧
    ∀ {β : Type} (q : Script σ β) (w' : RunState σ), (q.useMaster.run c w').1.isCancelled = false →
      (q.useMaster.run c w').2.session.replicasEnabled = w'.session.replicasEnabled := by
  intro w
  have hpassed : Passed c c.connection.config.enableSlaves w _ _ := p.passed c w
  have hvisit : ∀ earlier v later, p.visits c false w = earlier ++ v :: later →
      Passes c c.connection.config.enableSlaves w earlier false v.before ∧
        v.before.session.replicasEnabled
          = (c.connection.config.enableSlaves && !v.mainOnly) := fun earlier v later h => by
    obtain ⟨hbefore, henabled, -⟩ := (h ▸ hpassed.passes).visit
    exact ⟨hbefore, henabled⟩
  have hflags : ∀ v ∈ p.visits c false w, v.before.session.replicasEnabled
      = (c.connection.config.enableSlaves && !v.mainOnly) := by
    intro v hv
    obtain ⟨earlier, later, hvisits⟩ := List.append_of_mem hv
    exact (hvisit earlier v later hvisits).2
  refine ⟨fun v hv link sql values ending hsent => ?_, fun v _ hturn => v.sendsOn_turn hturn,
    fun earlier v later hvisits hlevel => ?_, hflags, hpassed.replicas, fun q w' hdone => ?_⟩
  · obtain ⟨earlier, later, hvisits⟩ := List.append_of_mem hv
    have haccounts := (hvisit earlier v later hvisits).1.accounts (.opened c start)
    rcases v.routes haccounts hsent with hmain | ⟨hread, hlevel, henabled⟩
    · exact .inl ⟨hmain, Connection.not_mem_replicas hbuild hmain⟩
    · rw [hflags v hv, Bool.and_eq_true] at henabled
      exact .inr ⟨hread, hlevel, by simpa using henabled.2⟩
  · have hbegun := (hvisit earlier v later hvisits).1.begun []
      (fun u hu => hreconnect u (hvisits ▸ List.mem_append_left _ hu)) fun h => absurd rfl h
    obtain ⟨link, hmaster, hin⟩ := hbegun hlevel
    have hv : v ∈ p.visits c false w := hvisits ▸ List.mem_append_right _ List.mem_cons_self
    exact ⟨link, hin, (v.stays (hreconnect v hv) hlevel hmaster).1⟩
  · exact (q.useMaster.passed c w').replicas hdone

/-- What a connection to one server with a replica is made of. -/
def replicatedParts : ConnectionParts where
  config := { enableLogging := false }
  primary := some "postgres://db"
  masters := []
  replicas := ["postgres://copy"]
  dialect := none
  retry := none
  cacheCapacity := none

/-- The client of a rehearsal, with a replica. -/
def replicated : Client Recorder :=
  { rehearsal with
    connection := { rehearsal.connection with
      replicas := [⟨.replica 0, "postgres://copy"⟩]
      cacheCapacity := some MemoryCache.standardCapacity } }

/-- A transaction in which nothing is done. -/
def emptyTransaction : Script Recorder Unit :=
  .bind (.call (.begin none)) fun _ => .call .commit

theorem emptyTransaction_routes : Connection.build replicatedParts = .ok replicated.connection ∧
    ∃ u v,
      emptyTransaction.visits replicated false (rehearsalState.opened replicated.connection)
          = [u, v] ∧
        v.before.session.level = 1 ∧
        ∃ link, InTransaction replicated [u] link ∧ v.SendsOn replicated link := by
  have hbuild : Connection.build replicatedParts = .ok replicated.connection := rfl
  have hcalls : (emptyTransaction.visits replicated false
      (rehearsalState.opened replicated.connection)).all fun v => !v.call.isReconnect := rfl
  have hroutes := emptyTransaction.run_routes replicated hbuild rehearsalState
    (by simpa using hcalls)
  exact ⟨hbuild, _, _, rfl, rfl, hroutes.2.2.1 [_] _ [] rfl Nat.one_ne_zero⟩

end Session

end QueryKit
