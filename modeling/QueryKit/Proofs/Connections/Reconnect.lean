import QueryKit.Proofs.Connections.Routing

/-!
# Reconnecting

- `Session.OpenedSince`: the connections that a session holds were opened after a moment. Every move
  keeps this (`OpenedSince.move`), and it is so after a reconnect (`Visit.reconnects`).
- `Passes.sound`: a session knows at which level its master connection stands, as long as it is not
  reconnected inside a transaction.
- `Script.run_reconnects`: a reconnect keeps the level of the session, though no connection that was
  used before it is used after it. So the session is in accord with its connection if and only if no
  transaction was open.
-/

namespace QueryKit

/-- No statement was sent on the connection. -/
def Journal.Unused (j : Journal) (link : Link) : Prop :=
  ∀ sql values ending, .sent link sql values ending ∉ j

/-- More connections have been opened elsewhere. -/
theorem Links.mono {conn : Connection} {replaces : Bool} {level next next' : Nat} {j : Journal}
    {master replica : Option Link} (h : Links conn replaces level j next master replica)
    (hnext : next ≤ next') : Links conn replaces level j next' master replica :=
  { h with
    sent_lt := fun link sql values ending hmem =>
      Nat.lt_of_lt_of_le (h.sent_lt link sql values ending hmem) hnext
    master_lt := fun link hl => Nat.lt_of_lt_of_le (h.master_lt link hl) hnext
    replica_lt := fun link hl => Nat.lt_of_lt_of_le (h.replica_lt link hl) hnext }

namespace Session

open Run Client

variable {σ α : Type} {c : Client σ} {k : Permit} {w w' : RunState σ} {link : Link} {n : Nat}
  {v : Visit σ} {enabled cut replaces : Bool} {vs : List (Visit σ)}

/-! ## New connections -/

/-- The connections that the session holds have numbers from `n` on, and so will all others. -/
structure OpenedSince (n : Nat) (w : RunState σ) : Prop where
  next : n ≤ w.nextLink
  master : ∀ link ∈ w.session.master, n ≤ link.number
  replica : ∀ link ∈ w.session.replica, n ≤ link.number

namespace OpenedSince

theorem of_held (h : OpenedSince n w) (hnext : w.nextLink ≤ w'.nextLink)
    (hmaster : w'.session.master = w.session.master)
    (hreplica : w'.session.replica = w.session.replica) : OpenedSince n w' where
  next := Nat.le_trans h.next hnext
  master := hmaster ▸ h.master
  replica := hreplica ▸ h.replica

theorem aside (h : OpenedSince n w) (ha : Aside w w') : OpenedSince n w' :=
  h.of_held ha.nextLink ha.master ha.replica

theorem move (h : OpenedSince n w) (hmove : c.Move k w w') : OpenedSince n w' := by
  cases hmove with
  | quiet hq =>
    exact h.of_held (Nat.le_of_eq hq.nextLink.symm) (by rw [hq.session]) (by rw [hq.session])
  | openMaster _ _ =>
    refine ⟨Nat.le_succ_of_le h.next, fun link hl => ?_, h.replica⟩
    cases hl
    exact h.next
  | openReplica _ _ =>
    refine ⟨Nat.le_succ_of_le h.next, h.master, fun link hl => ?_⟩
    cases hl
    exact h.next
  | sendMaster => exact h.of_held (Nat.le_refl _) rfl rfl
  | sendReplica => exact h.of_held (Nat.le_refl _) rfl rfl
  | releaseMaster _ _ => exact ⟨h.next, nofun, h.replica⟩
  | discardMaster _ _ => exact ⟨h.next, nofun, h.replica⟩
  | releaseReplica _ => exact ⟨h.next, h.master, nofun⟩
  | discardReplica _ => exact ⟨h.next, h.master, nofun⟩
  | adjust hmaster hreplica _ _ => exact h.of_held (Nat.le_refl _) hmaster hreplica

theorem reach (h : OpenedSince n w) (hreach : c.Reach k w w') : OpenedSince n w' := by
  induction hreach with
  | refl => exact h
  | tail _ hmove ih => exact ih.move hmove

theorem passes (h : OpenedSince n w) (hpasses : Passes c enabled w vs cut w') :
    OpenedSince n w' :=
  hpasses.keeps (fun _ _ ha h => h.aside ha) (fun v _ _ h => h.reach (v.reach c)) h

/-- Whatever a call sends is sent on such connections. -/
theorem sends (h : OpenedSince n v.before) {sql : String} {values : List Value} {ending : Ending}
    (hsent : .sent link sql values ending ∈ v.events c) : n ≤ link.number := by
  have hsends := Reach.sends (P := fun link _ => n ≤ link.number) (v.reach c)
    fun w₁ l _ hreach _ hserves => ?_
  · obtain ⟨new, hj, hnew⟩ := hsends
    exact hnew link sql values ending ((Visit.mem_events hj).mp hsent)
  · rcases hserves with hmaster | ⟨-, -, -, hreplica⟩
    · exact (h.reach hreach).master l hmaster
    · exact (h.reach hreach).replica l hreplica

end OpenedSince

/-- Nothing was sent yet on a connection that is opened from now on. -/
theorem Accounts.unused (h : Accounts c w) (hlink : w.nextLink ≤ link.number) :
    w.journal.Unused link := fun _ _ _ hmem =>
  Nat.lt_irrefl _ (Nat.lt_of_lt_of_le (h.number_lt _ hmem link rfl) hlink)

/-- However it ends, a reconnect leaves nothing of what was held. -/
theorem reconnect_opens (attempt : Nat) :
    Meets (OpenedSince n) (OpenedSince n) (fun w : RunState σ => n ≤ w.nextLink)
      (c.reconnect attempt) fun _ => OpenedSince n := by
  have hmaster : Meets (OpenedSince n) (OpenedSince n) (fun w : RunState σ => n ≤ w.nextLink)
      dropMaster fun _ w => n ≤ w.nextLink ∧ w.session.master = none := by
    refine Meets.session.bind fun s => ?_
    cases hmaster : s.master with
    | some link =>
      rintro w ⟨hn, rfl⟩
      exact ⟨hn, rfl⟩
    | none =>
      refine .pure ?_
      rintro w ⟨hn, rfl⟩
      exact ⟨hn, hmaster⟩
  have hreplica : Meets (OpenedSince n) (OpenedSince n)
      (fun w : RunState σ => n ≤ w.nextLink ∧ w.session.master = none) dropReplica
      fun _ => OpenedSince n := by
    refine Meets.session.bind fun s => ?_
    cases hreplica : s.replica with
    | some link =>
      rintro w ⟨⟨hn, hmaster⟩, rfl⟩
      exact ⟨hn, by simp [hmaster], nofun⟩
    | none =>
      refine .pure ?_
      rintro w ⟨⟨hn, hmaster⟩, rfl⟩
      exact ⟨hn, by simp [hmaster], by simp [hreplica]⟩
  have hwalks : ∀ {β : Type} {x : Run σ β}, c.Walks .silent x →
      Keeps (OpenedSince n) (OpenedSince n) x := fun hx =>
    Meets.of_after fun w hw => hw.reach (hx w)
  refine hmaster.bind fun _ => hreplica.bind fun _ => hwalks ?_
  exact (Walks.log _ _).bind fun _ => (mainLinkAt_walks attempt).bind fun _ => .pure ()

/-- A reconnect keeps the level and sends nothing. What is held after it was opened by it. -/
theorem Visit.reconnects (hreconnect : v.call.isReconnect = true) :
    OpenedSince v.before.nextLink (v.after c) ∧
      (v.after c).session.level = v.before.session.level ∧
      ∀ link, v.before.journal.Unused link → (v.after c).journal.Unused link := by
  obtain ⟨call, mainOnly, w⟩ := v
  cases call with
  | reconnect attempt =>
    let v : Visit σ := ⟨.reconnect attempt, mainOnly, w⟩
    have hreach : c.Reach { Permit.silent with parts := true } w (v.after c) := v.reach c
    obtain ⟨new, hj, hsent⟩ := hreach.sends (P := fun _ _ => False) fun _ _ _ _ h _ => h
    refine ⟨(reconnect_opens attempt).after (Nat.le_refl _), hreach.level rfl,
      fun link hlink sql values ending hmem => ?_⟩
    rw [hj] at hmem
    rcases List.mem_append.mp hmem with hmem | hmem
    · exact hsent link sql values ending hmem
    · exact hlink sql values ending hmem
  | _ => cases hreconnect

/-! ## Sessions in accord with their connections -/

/-- The command that is run, if the call runs one, does not concern transactions. -/
def Visit.IsPlain (c : Client σ) (v : Visit σ) : Prop :=
  ∀ cmd ∈ v.call.command?, cmd.IsPlain c.connection

theorem Visit.isPlain_of_isReconnect (hreconnect : v.call.isReconnect = true) : v.IsPlain c := by
  obtain ⟨call, mainOnly, w⟩ := v
  cases call with
  | reconnect attempt => exact nofun
  | _ => cases hreconnect

/-- The session is not reconnected inside a transaction. -/
def Visit.SparesTransaction (v : Visit σ) : Prop :=
  v.call.isReconnect = true → v.before.session.level = 0

theorem sound_opened (c : Client σ) (replaces : Bool) (w : RunState σ) :
    c.Sound replaces (w.opened c.connection) :=
  ⟨⟨rfl, (Links.new c.connection replaces).mono (Nat.zero_le _)⟩, fun _ => rfl⟩

theorem sound_aside (h : c.Sound replaces w) (ha : Aside w w') : c.Sound replaces w' := by
  obtain ⟨⟨-, hlinks⟩, hisolation⟩ := h
  obtain ⟨enabled, hs⟩ := ha.session
  obtain ⟨logs, hj, hlogs⟩ := ha.journal
  refine ⟨⟨rfl, ?_⟩, ?_⟩
  · rw [hj, hs]
    exact (hlinks.mono ha.nextLink).logs hlogs
  · rw [hs]
    exact hisolation

/-- Calls keep a session in accord with its connection, but for a reconnect inside a transaction. -/
theorem Call.keeps {k : Call α} (hplain : ∀ cmd ∈ k.command?, cmd.IsPlain c.connection) :
    Meets (c.Sound replaces) (Safe replaces)
      (fun w => c.Sound replaces w ∧ (k.isReconnect = true → w.session.isActive = false)) (k.run c)
      fun _ => c.Sound replaces := by
  have hkeeps : ∀ {β : Type} {x : Run σ β} {P : RunState σ → Prop},
      Keeps (c.Sound replaces) (Safe replaces) x →
        Meets (c.Sound replaces) (Safe replaces) (fun w => c.Sound replaces w ∧ P w) x
          fun _ => c.Sound replaces := fun hx => Meets.of_imp (fun _ hw => hw.1) hx
  cases k with
  | begin isolation => exact hkeeps (begin_keeps isolation)
  | commit => exact hkeeps commit_keeps
  | rollBack => exact hkeeps rollBack_keeps
  | setIsolationLevel isolation => exact hkeeps (setIsolationLevel_keeps isolation)
  | execute cmd => exact hkeeps (execute_keeps (hplain cmd rfl))
  | fetch method f cmd => exact hkeeps (fetchAs_keeps (hplain cmd rfl) method f)
  | tableSchema name => exact hkeeps (tableSchema_keeps name)
  | release force => exact hkeeps (release_keeps force)
  | reconnect attempt => exact (reconnect_keeps attempt).of_imp fun _ hw => ⟨hw.1, hw.2 rfl⟩
  | close => exact hkeeps close_keeps

theorem Visit.sound (h : c.Sound replaces v.before) (hplain : v.IsPlain c)
    (hspares : v.SparesTransaction) (hending : v.ending c ≠ .pending) :
    c.Sound replaces (v.after c) := by
  refine Visit.of_returned ((Call.keeps hplain).of_imp ?_) hending
  rintro _ rfl
  refine ⟨h, fun hreconnect => ?_⟩
  simp [isActive, hspares hreconnect]

theorem Passes.sound (h : Passes c enabled w vs false w') (hw : c.Sound replaces w)
    (hvs : ∀ v ∈ vs, v.IsPlain c ∧ v.SparesTransaction) : c.Sound replaces w' := by
  refine h.keeps (fun _ _ ha h => sound_aside h ha) (fun v hv hending h => ?_) hw
  exact v.sound h (hvs v hv).1 (hvs v hv).2 fun hpending => nomatch hending hpending

/-- A session in a transaction is in accord with no connection that is unused. -/
theorem Tracks.level_eq_zero {s : Session} {j : Journal} (h : s.Tracks replaces j)
    (hmaster : ∀ link ∈ s.master, j.Unused link) : s.level = 0 := by
  refine Decidable.byContradiction fun hlevel => ?_
  obtain ⟨n, hn⟩ := Nat.exists_eq_add_one_of_ne_zero hlevel
  obtain ⟨link, saved, nesting, hlink, hopened, -⟩ := h.inside n hn
  rw [Journal.standing_of_unsent (hmaster link hlink)] at hopened
  cases hopened

/-! ## Runs -/

/-- In every run, a reconnect keeps the level of the session, and nothing was sent before on the
master connection that is held after it, or on any connection on which a later call sends something.
As long as the session is not reconnected inside a transaction, it is in accord with its master
connection, and inside a transaction all calls but reconnects send their statements on it. If then a
reconnect returns, the session is in accord with its new connection if and only if it was in no
transaction. -/
theorem Script.run_reconnects (c : Client σ) (p : Script σ α) (start : RunState σ)
    (replaces : Bool) :
    let w := start.opened c.connection
    (∀ earlier v later, p.visits c false w = earlier ++ v :: later → v.call.isReconnect = true →
      (v.after c).session.level = v.before.session.level ∧
      (∀ link ∈ (v.after c).session.master, (v.after c).journal.Unused link) ∧
      ∀ u ∈ later, ∀ link sql values ending, .sent link sql values ending ∈ u.events c →
        v.before.journal.Unused link) ∧
    ∀ earlier v later, p.visits c false w = earlier ++ v :: later →
      (∀ u ∈ earlier, u.IsPlain c ∧ u.SparesTransaction) →
        v.before.session.Tracks replaces v.before.journal ∧
        (v.call.isReconnect = false → v.before.session.level ≠ 0 →
          ∃ link, v.before.session.master = some link ∧ v.SendsOn c link) ∧
        (v.call.isReconnect = true → v.ending c ≠ .pending →
          ((v.after c).session.Tracks replaces (v.after c).journal ↔
            v.before.session.level = 0)) := by
  intro w
  have hpasses := (p.passed c w).passes
  have hreconnects : ∀ earlier v later, p.visits c false w = earlier ++ v :: later →
      v.call.isReconnect = true →
        (v.after c).session.level = v.before.session.level ∧
        (∀ link ∈ (v.after c).session.master, (v.after c).journal.Unused link) ∧
        ∀ u ∈ later, ∀ link sql values ending, .sent link sql values ending ∈ u.events c →
          v.before.journal.Unused link := by
    intro earlier v later hvisits hreconnect
    obtain ⟨hopened, hlevel, hunused⟩ := v.reconnects (c := c) hreconnect
    rw [hvisits] at hpasses
    have haccounts : Accounts c v.before := hpasses.visit.1.accounts (.opened c start)
    refine ⟨hlevel, fun link hl => hunused link (haccounts.unused (hopened.master link hl)), ?_⟩
    intro u hu link sql values ending hsent
    -- What is held from here on has numbers that nothing had that was sent before.
    obtain ⟨between, rest, rfl⟩ := List.append_of_mem hu
    rcases hpasses.visit.2.2 with hnil | hlater
    · simp at hnil
    · exact haccounts.unused ((hopened.passes hlater.visit.1).sends hsent)
  refine ⟨hreconnects, fun earlier v later hvisits hearlier => ?_⟩
  have hsound : c.Sound replaces v.before :=
    (hvisits ▸ hpasses).visit.1.sound (sound_opened c replaces start) hearlier
  refine ⟨hsound.session_tracks, fun hreconnect hlevel => ?_, fun hreconnect hending => ?_⟩
  · obtain ⟨n, hn⟩ := Nat.exists_eq_add_one_of_ne_zero hlevel
    obtain ⟨link, saved, nesting, hmaster, -⟩ := hsound.session_tracks.inside n hn
    exact ⟨link, hmaster, (v.stays hreconnect hlevel hmaster).1⟩
  · obtain ⟨hlevel, hunused, -⟩ := hreconnects earlier v later hvisits hreconnect
    refine ⟨fun htracks => hlevel ▸ htracks.level_eq_zero hunused, fun hzero => ?_⟩
    have hplain : v.IsPlain c := v.isPlain_of_isReconnect hreconnect
    exact (v.sound hsound hplain (fun _ => hzero) hending).session_tracks

/-- A session is reconnected inside a transaction, which is committed then. -/
def lostTransaction : Script Recorder Unit :=
  .bind (.call (.begin none)) fun _ => .bind (.call (.reconnect 1)) fun _ => .call .commit

/-- The connection on which `COMMIT` runs was not used before. -/
theorem lostTransaction_commits : ∃ u v x,
    lostTransaction.visits rehearsal false (rehearsalState.opened rehearsal.connection)
        = [u, v, x] ∧
      (v.call.isReconnect = true ∧ v.ending rehearsal ≠ .pending ∧ v.before.session.level = 1) ∧
      ¬ (v.after rehearsal).session.Tracks false (v.after rehearsal).journal ∧
      ∃ link, .sent link "COMMIT" [] .done ∈ x.events rehearsal ∧ v.before.journal.Unused link := by
  obtain ⟨hlater, htracks⟩ := lostTransaction.run_reconnects rehearsal rehearsalState false
  refine ⟨_, _, _, rfl, ⟨rfl, nofun, rfl⟩, fun h => ?_, ⟨⟨.primary, "postgres://db"⟩, 1⟩, ?_⟩
  · have hiff := (htracks [_] _ [_] rfl ?_).2.2 rfl nofun
    · cases hiff.mp h
    · intro y hy
      cases List.mem_singleton.mp hy
      exact ⟨nofun, nofun⟩
  · refine ⟨?sent, (hlater [_] _ [_] rfl rfl).2.2 _ (List.mem_singleton_self _) _ _ _ _ ?sent⟩
    exact List.mem_of_getElem? (i := 1) rfl
end Session

end QueryKit
