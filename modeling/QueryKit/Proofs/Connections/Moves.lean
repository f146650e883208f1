import QueryKit.Command.Fetch
import QueryKit.Proofs.Transaction.Program
import Mathlib.Logic.Relation

/-!
# Moves of a session

- `Client.Move`: the single things that the operations of a session do to its connections and to the
  journal. What one of them may do is its `Permit`.
- `Client.Walks`: a step that is made of such moves, however it ends. What every move keeps is kept
  by such a step.
- `Client.Took`: a connection has been taken from a pool, and nothing else has happened.
- `Client.mainLinkAt_reach`, `Client.linkFor_reach`, `Client.release_walks`,
  `Client.reconnect_reach`, `Client.close_walks`: the operations on connections are made of moves.
-/

namespace QueryKit

/-- The servers that take writes. -/
def Connection.mains (c : Connection) : List Pool :=
  c.primary.toList ++ c.masters

/-- What an operation may do besides sending statements on the master connection. -/
structure Permit where
  /-- Statements may go to a replica. -/
  reads : Bool
  /-- The master connection may be closed inside a transaction. -/
  parts : Bool
  /-- The level of the transaction may change. -/
  turns : Bool
  /-- The texts that may be sent. -/
  texts : String → Prop

/-- What operations that send nothing may do. -/
def Permit.silent : Permit :=
  ⟨false, false, false, fun _ => False⟩

/-- What operations on transactions may do. -/
def Permit.turning : Permit :=
  ⟨false, true, true, fun _ => True⟩

/-- A quiet step sends nothing. -/
theorem Run.Quiet.silent {σ : Type} {w w' : RunState σ} (h : Quiet w w') :
    ∃ more, w'.journal = more ++ w.journal ∧ ∀ e ∈ more, e.IsSilent := by
  obtain ⟨logs, hj, hlogs⟩ := h.journal
  refine ⟨logs, hj, fun e he => ?_⟩
  obtain ⟨level, text, rfl⟩ := hlogs e he
  trivial

namespace Run.Meets

variable {σ α : Type} {I J P : RunState σ → Prop} {x : Run σ α} {Q : α → RunState σ → Prop}

/-- Go on from the state that was read. -/
theorem of_each (h : ∀ w, P w → Meets I J (fun w' => w' = w) x Q) : Meets I J P x Q :=
  fun w hw => h w hw w rfl

/-- Read the session of a state that is known. -/
theorem session_of {β : Type} {w : RunState σ} {f : Session → Run σ β} {Q : β → RunState σ → Prop}
    (h : Meets I J (fun w' => w' = w) (f w.session) Q) :
    Meets I J (fun w' => w' = w) (Run.session >>= f) Q := by
  rintro _ rfl
  exact h _ rfl

/-- What holds however a step ends. -/
theorem of_after (h : ∀ w, P w → I (x w).2) : Meets I I P x fun _ => I := by
  intro w hw
  have hw' := h w hw
  rcases hr : x w with ⟨a | e | _, w'⟩ <;> rwa [hr] at hw'

theorem after {w : RunState σ} (h : Meets I I P x fun _ => I) (hw : P w) : I (x w).2 := by
  have hw' := h w hw
  rcases hr : x w with ⟨a | e | _, w'⟩ <;> rwa [hr] at hw'

end Run.Meets

namespace Client

open Run

variable {σ α β : Type}

/-- A single thing that an operation does. -/
inductive Move (c : Client σ) (k : Permit) : RunState σ → RunState σ → Prop
  | quiet {w w' : RunState σ} : Quiet w w' → Move c k w w'
  | openMaster {w : RunState σ} {pool : Pool} :
    w.session.master = none → pool ∈ c.connection.mains →
      Move c k w { w with
        nextLink := w.nextLink + 1
        journal := .acquired ⟨pool, w.nextLink⟩ :: w.journal
        session := { w.session with master := some ⟨pool, w.nextLink⟩ } }
  | openReplica {w : RunState σ} {pool : Pool} :
    w.session.replica = none → pool ∈ c.connection.replicas →
      Move c k w { w with
        nextLink := w.nextLink + 1
        journal := .acquired ⟨pool, w.nextLink⟩ :: w.journal
        session := { w.session with replica := some ⟨pool, w.nextLink⟩ } }
  | sendMaster {w : RunState σ} {link : Link} {sql : String} (values : List Value)
    (ending : Ending) (servers : σ) : w.session.master = some link → k.texts sql →
      Move c k w { w with servers, journal := .sent link sql values ending :: w.journal }
  | sendReplica {w : RunState σ} {link : Link} {sql : String} (values : List Value)
    (ending : Ending) (servers : σ) : w.session.replica = some link → k.texts sql →
      k.reads = true → w.session.level = 0 → w.session.replicasEnabled = true →
      Move c k w { w with servers, journal := .sent link sql values ending :: w.journal }
  /-- A connection goes back to its pool only outside transactions. -/
  | releaseMaster {w : RunState σ} {link : Link} :
    w.session.master = some link → w.session.level = 0 →
      Move c k w { w with
        journal := .released link :: w.journal
        session := { w.session with master := none } }
  | releaseReplica {w : RunState σ} {link : Link} : w.session.replica = some link →
      Move c k w { w with
        journal := .released link :: w.journal
        session := { w.session with replica := none } }
  | discardMaster {w : RunState σ} {link : Link} :
    w.session.master = some link → (w.session.level ≠ 0 → k.parts = true) →
      Move c k w { w with
        journal := .discarded link :: w.journal
        session := { w.session with master := none } }
  | discardReplica {w : RunState σ} {link : Link} : w.session.replica = some link →
      Move c k w { w with
        journal := .discarded link :: w.journal
        session := { w.session with replica := none } }
  /-- What the session remembers changes, not what it holds. -/
  | adjust {w : RunState σ} {s : Session} : s.master = w.session.master →
      s.replica = w.session.replica → s.replicasEnabled = w.session.replicasEnabled →
      (s.level ≠ w.session.level → k.turns = true) → Move c k w { w with session := s }

/-- From one state to another by moves. -/
abbrev Reach (c : Client σ) (k : Permit) : RunState σ → RunState σ → Prop :=
  Relation.ReflTransGen (c.Move k)

/-- However it ends, the step is made of moves. -/
def Walks (c : Client σ) (k : Permit) (x : Run σ α) : Prop :=
  Changes (c.Reach k) x

variable {c : Client σ} {k : Permit} {w w' : RunState σ}

/-- To see that a step is made of moves, one starts at any state that moves have led to. -/
theorem walks_iff {x : Run σ α} : c.Walks k x ↔ ∀ w, Keeps (c.Reach k w) (c.Reach k w) x :=
  ⟨fun h _ => h.keeps fun _ _ hstep hw => hw.trans hstep, fun h w => (h w).after .refl⟩

/-- Replicas are switched on and off by nothing that an operation does. -/
theorem Reach.replicasEnabled (h : c.Reach k w w') :
    w'.session.replicasEnabled = w.session.replicasEnabled := by
  induction h with
  | refl => rfl
  | tail _ hmove ih =>
    rw [← ih]
    cases hmove with
    | quiet hq => rw [hq.session]
    | adjust _ _ henabled _ => exact henabled
    | _ => rfl

/-- The level changes only where it may. -/
theorem Reach.level (h : c.Reach k w w') (hk : k.turns = false) :
    w'.session.level = w.session.level := by
  induction h with
  | refl => rfl
  | tail _ hmove ih =>
    rw [← ih]
    cases hmove with
    | quiet hq => rw [hq.session]
    | adjust _ _ _ hlevel =>
      refine Decidable.byContradiction fun hne => ?_
      exact Bool.eq_false_iff.mp hk (hlevel hne)
    | _ => rfl

/-- The connection is held, and it may be used for a statement. -/
def Serves (k : Permit) (link : Link) (w : RunState σ) : Prop :=
  w.session.master = some link ∨ (k.reads = true ∧ w.session.level = 0 ∧
    w.session.replicasEnabled = true ∧ w.session.replica = some link)

/-- What a move enters into the journal: its statements go to a connection that may be used. -/
theorem Move.sends (h : c.Move k w w') : ∃ new, w'.journal = new ++ w.journal ∧
    ∀ link sql values ending, .sent link sql values ending ∈ new →
      k.texts sql ∧ Serves k link w := by
  cases h with
  | quiet hq =>
    obtain ⟨more, hj, hmore⟩ := hq.silent
    exact ⟨more, hj, fun link sql values ending hmem => (hmore _ hmem).elim⟩
  | sendMaster values ending servers hmaster htext =>
    refine ⟨[_], rfl, fun l text vs ending' hmem => ?_⟩
    cases List.mem_singleton.mp hmem
    exact ⟨htext, .inl hmaster⟩
  | sendReplica values ending servers hreplica htext hreads hlevel henabled =>
    refine ⟨[_], rfl, fun l text vs ending' hmem => ?_⟩
    cases List.mem_singleton.mp hmem
    exact ⟨htext, .inr ⟨hreads, hlevel, henabled, hreplica⟩⟩
  | adjust => exact ⟨[], rfl, nofun⟩
  | _ => exact ⟨[_], rfl, fun l text vs ending' hmem => nomatch List.mem_singleton.mp hmem⟩

/-- What moves enter into the journal, by the states in which statements are sent. -/
theorem Reach.sends {P : Link → String → Prop} (h : c.Reach k w w')
    (hP : ∀ w₁ link sql, c.Reach k w w₁ → k.texts sql → Serves k link w₁ → P link sql) :
    ∃ new, w'.journal = new ++ w.journal ∧
      ∀ link sql values ending, .sent link sql values ending ∈ new → P link sql := by
  induction h with
  | refl => exact ⟨[], rfl, nofun⟩
  | tail hreach hmove ih =>
    obtain ⟨new, hj, hsent⟩ := ih
    obtain ⟨more, hj', hsent'⟩ := hmove.sends
    refine ⟨more ++ new, by rw [hj', hj, List.append_assoc], fun link sql values ending hmem => ?_⟩
    rcases List.mem_append.mp hmem with hmem | hmem
    · obtain ⟨htext, hserves⟩ := hsent' link sql values ending hmem
      exact hP _ link sql hreach htext hserves
    · exact hsent link sql values ending hmem

/-- An operation that may neither change the level nor close the connection of a transaction stays
on it. -/
theorem Reach.master {link : Link} (h : c.Reach k w w') (hturns : k.turns = false)
    (hparts : k.parts = false) (hlevel : w.session.level ≠ 0)
    (hmaster : w.session.master = some link) : w'.session.master = some link := by
  induction h with
  | refl => exact hmaster
  | tail hreach hmove ih =>
    -- The level is still not 0, so the connection is not given back.
    have hne := hlevel
    rw [← Reach.level hreach hturns] at hne
    cases hmove with
    | quiet hq => rw [hq.session, ih]
    | openMaster hnone _ => cases ih.symm.trans hnone
    | releaseMaster _ hzero => exact absurd hzero hne
    | discardMaster _ hdiscard => exact absurd (hdiscard hne) (Bool.eq_false_iff.mp hparts)
    | adjust hsame _ _ _ => exact hsame.trans ih
    | _ => exact ih

/-- Inside a transaction such an operation sends statements on its connection only. -/
theorem Reach.sends_master {link : Link} (h : c.Reach k w w') (hturns : k.turns = false)
    (hparts : k.parts = false) (hlevel : w.session.level ≠ 0)
    (hmaster : w.session.master = some link) : ∃ new, w'.journal = new ++ w.journal ∧
      ∀ l sql values ending, .sent l sql values ending ∈ new → l = link := by
  refine h.sends (P := fun l _ => l = link) fun w₁ l sql hreach _ hserves => ?_
  rcases hserves with hserves | ⟨-, hzero, -⟩
  · have hmaster₁ := Reach.master hreach hturns hparts hlevel hmaster
    exact Option.some.inj (hserves.symm.trans hmaster₁)
  · rw [Reach.level hreach hturns] at hzero
    exact absurd hzero hlevel

namespace Walks

theorem keeps {x : Run σ α} (h : c.Walks k x) (w : RunState σ) :
    Keeps (c.Reach k w) (c.Reach k w) x :=
  walks_iff.mp h w

theorem quiet {x : Run σ α} (hx : IsQuiet x) : c.Walks k x :=
  fun w => .single (.quiet (hx w))

theorem pure (a : α) : c.Walks k (Run.pure a : Run σ α) :=
  .quiet .pure

theorem fail (e : Error) : c.Walks k (Run.fail e : Run σ α) :=
  fun _ => .refl

theorem ofResult : ∀ r : Result α, c.Walks k (Run.ofResult r : Run σ α)
  | .ok a => .pure a
  | .error e => .fail e

theorem cancel : c.Walks k (Run.cancel : Run σ α) :=
  fun _ => .refl

theorem log (level : LogLevel) (text : String) : c.Walks k (Run.log level text : Run σ Unit) :=
  .quiet (.log level text)

theorem bind {x : Run σ α} {f : α → Run σ β} (hx : c.Walks k x) (hf : ∀ a, c.Walks k (f a)) :
    c.Walks k (x >>= f) :=
  walks_iff.mpr fun w => (hx.keeps w).bind fun a => (hf a).keeps w

theorem attempt {x : Run σ α} (hx : c.Walks k x) : c.Walks k x.attempt :=
  Changes.attempt (R := c.Reach k) hx

theorem ite {p : Prop} [Decidable p] {x y : Run σ α} (hx : c.Walks k x) (hy : c.Walks k y) :
    c.Walks k (if p then x else y) :=
  Changes.ite (R := c.Reach k) hx hy

theorem session {f : Session → Run σ α} (hf : ∀ s, c.Walks k (f s)) :
    c.Walks k (Run.session >>= f) :=
  Changes.session (R := c.Reach k) hf

theorem modifySession {f : Session → Session} (hmaster : ∀ s, (f s).master = s.master)
    (hreplica : ∀ s, (f s).replica = s.replica)
    (henabled : ∀ s, (f s).replicasEnabled = s.replicasEnabled)
    (hlevel : ∀ s, (f s).level ≠ s.level → k.turns = true) :
    c.Walks k (Run.modifySession f : Run σ Unit) :=
  fun _ => .single (.adjust (hmaster _) (hreplica _) (henabled _) (hlevel _))

end Walks

/-! ## Taking connections -/

/-- The connection has been taken from one of the pools, and nothing else has happened. -/
def Took (pools : List Pool) (w : RunState σ) (link : Link) (w' : RunState σ) : Prop :=
  link.pool ∈ pools ∧ ∃ w₁, Quiet w w₁ ∧ link = ⟨link.pool, w₁.nextLink⟩ ∧
    Quiet { w₁ with nextLink := w₁.nextLink + 1, journal := .acquired link :: w₁.journal } w'

theorem Took.mono {pools pools' : List Pool} {link : Link} (h : Took pools w link w')
    (hpools : ∀ pool ∈ pools, pool ∈ pools') : Took pools' w link w' :=
  ⟨hpools _ h.1, h.2⟩

theorem Took.session {pools : List Pool} {link : Link} (h : Took pools w link w') :
    w'.session = w.session := by
  obtain ⟨-, w₁, hq₁, -, hq₂⟩ := h
  rw [hq₂.session]
  exact hq₁.session

/-- No statement is sent where a connection is taken. -/
theorem Took.journal {pools : List Pool} {link : Link} (h : Took pools w link w') :
    ∃ more, w'.journal = more ++ w.journal ∧ ∀ e ∈ more, e.IsSilent := by
  obtain ⟨-, w₁, hq₁, -, hq₂⟩ := h
  obtain ⟨more₁, hj₁, hmore₁⟩ := hq₁.silent
  obtain ⟨more₂, hj₂, hmore₂⟩ := hq₂.silent
  refine ⟨more₂ ++ .acquired link :: more₁, ?_, fun e he => ?_⟩
  · rw [hj₂, hj₁, List.append_assoc, List.cons_append]
  · rcases List.mem_append.mp he with he | he
    · exact hmore₂ e he
    · rcases List.mem_cons.mp he with rfl | he
      · trivial
      · exact hmore₁ e he

theorem took_stable {pools : List Pool} {link : Link} : Stable (Took pools w link) := by
  rintro w' w'' hq ⟨hpool, w₁, hq₁, hlink, hq₂⟩
  exact ⟨hpool, w₁, hq₁, hlink, hq₂.trans hq⟩

theorem quiet_stable : Stable (Quiet w) :=
  fun _ _ hq h => h.trans hq

/-- From the state `w` on nothing has happened unless a step ends in a result. -/
abbrev Finds (w : RunState σ) (x : Run σ α) (Q : α → RunState σ → Prop) : Prop :=
  Meets (Quiet w) (Quiet w) (Quiet w) x Q

theorem finds_quiet {x : Run σ α} (hx : IsQuiet x) : Finds w x fun _ => Quiet w :=
  .quiet hx quiet_stable (fun _ h => h) fun _ h => h

theorem acquire_took (pool : Pool) : Finds w (c.acquire pool) (Took [pool] w) := by
  refine (finds_quiet (.ask _)).bind fun _ => Meets.state.bind fun w₁ => ?_
  rintro w' ⟨hq, rfl⟩
  exact ⟨List.mem_singleton_self pool, w', hq, rfl, .refl⟩

/-- What is found in a list of servers was taken from one of them. -/
def TookAny (pools : List Pool) (w : RunState σ) : Option Link → RunState σ → Prop
  | none => Quiet w
  | some link => Took pools w link

theorem TookAny.mono {pools pools' : List Pool} {found : Option Link}
    (h : TookAny pools w found w') (hpools : ∀ pool ∈ pools, pool ∈ pools') :
    TookAny pools' w found w' := by
  cases found with
  | none => exact h
  | some link => exact Took.mono h hpools

theorem openFirst_took : ∀ pools : List Pool, Finds w (c.openFirst pools) (TookAny pools w)
  | [] => .pure fun _ hq => hq
  | pool :: pools => by
    have hrest : Finds w (c.openFirst pools) (TookAny (pool :: pools) w) :=
      (openFirst_took pools).imp fun _ _ h => h.mono fun _ => List.mem_cons_of_mem _
    refine (finds_quiet (isServerDead_quiet _)).bind fun dead => .ite (fun _ => hrest) fun _ => ?_
    refine (acquire_took pool).attempt.bind fun r => ?_
    cases r with
    | ok link =>
      refine .pure fun w' hw => Took.mono hw ?_
      rintro _ hmem
      cases List.mem_singleton.mp hmem
      exact List.mem_cons_self
    | error e =>
      refine (Meets.log quiet_stable _ _).bind fun _ => ?_
      exact (finds_quiet (markServerDead_quiet _)).bind fun _ => hrest

theorem openArranged_took (shuffled : Bool) (pools : List Pool) :
    Finds w (c.arranged shuffled pools >>= c.openFirst) (TookAny pools w) := by
  refine Meets.bind (R := fun found w' => (∀ pool ∈ found, pool ∈ pools) ∧ Quiet w w') ?_
    fun found => .of_fact fun hfound => (openFirst_took found).imp fun _ _ h => h.mono hfound
  refine .ite (fun _ => ?_) fun _ => .pure fun _ hq => ⟨fun _ h => h, hq⟩
  intro w' hq
  exact ⟨fun pool => (c.backend.arrange_perm pools w'.servers).mem_iff.mp,
    hq.trans (IsQuiet.observe _ w')⟩

theorem openMain_took (attempt : Nat) :
    Finds w (c.openMain attempt) (Took c.connection.mains w) := by
  refine .ite (fun _ => ?_) fun _ => ?_
  · rw [← bind_assoc]
    refine (openArranged_took _ _).bind fun found => ?_
    cases found with
    | none => exact .fail fun _ hq => hq
    | some link =>
      exact .pure fun _ h => Took.mono h fun _ hmem => List.mem_append_right _ hmem
  · split
    · exact .fail fun _ hq => hq
    · next pool hprimary =>
      have hmem : ∀ p ∈ [pool], p ∈ c.connection.mains := by
        simp [Connection.mains, hprimary]
      refine ((acquire_took pool).imp fun _ _ h => h.mono hmem).bind fun link => ?_
      have hstable : Stable (Took c.connection.mains w link) := took_stable
      refine .ite (fun _ => ?_) fun _ => .pure fun _ h => h
      exact Meets.bind (R := fun _ => Took c.connection.mains w link)
        (Meets.log hstable _ _) fun _ => .pure fun _ h => h

theorem openReplica_took : Finds w c.openReplica (TookAny c.connection.replicas w) :=
  .ite (fun _ => openArranged_took _ _) fun _ => .pure fun _ hq => hq

/-! ## The connection for a statement -/

/-- The session has taken the connection that it did not hold. -/
theorem Took.reach_master {link : Link} {w₀ : RunState σ} (h : Took c.connection.mains w link w')
    (hreach : c.Reach k w₀ w) (hmaster : w.session.master = none) :
    c.Reach k w₀ { w' with session := { w'.session with master := some link } } := by
  obtain ⟨hpool, w₁, hq₁, hlink, hq₂⟩ := h
  have hmaster₁ : w₁.session.master = none := by rw [hq₁.session, hmaster]
  rw [hlink] at hq₂ ⊢
  refine ((hreach.tail (.quiet hq₁)).tail (.openMaster hmaster₁ hpool)).tail (.quiet ?_)
  exact ⟨by rw [hq₂.session], hq₂.nextLink, hq₂.journal⟩

theorem Took.reach_replica {link : Link} {w₀ : RunState σ}
    (h : Took c.connection.replicas w link w') (hreach : c.Reach k w₀ w)
    (hreplica : w.session.replica = none) :
    c.Reach k w₀ { w' with session := { w'.session with replica := some link } } := by
  obtain ⟨hpool, w₁, hq₁, hlink, hq₂⟩ := h
  have hreplica₁ : w₁.session.replica = none := by rw [hq₁.session, hreplica]
  rw [hlink] at hq₂ ⊢
  refine ((hreach.tail (.quiet hq₁)).tail (.openReplica hreplica₁ hpool)).tail (.quiet ?_)
  exact ⟨by rw [hq₂.session], hq₂.nextLink, hq₂.journal⟩

/-- What is found from a state that moves led to. -/
theorem Finds.reach {x : Run σ α} {Q : α → RunState σ → Prop} {w₀ : RunState σ}
    (hx : Finds w x Q) (hreach : c.Reach k w₀ w) :
    Meets (c.Reach k w₀) (c.Reach k w₀) (fun w' => w' = w) x Q :=
  hx.mono (fun _ h => h ▸ .refl) (fun _ _ h => h) (fun _ hq => hreach.tail (.quiet hq))
    fun _ hq => hreach.tail (.quiet hq)

theorem mainLinkAt_reach (attempt : Nat) :
    Meets (c.Reach k w) (c.Reach k w) (c.Reach k w) (c.mainLinkAt attempt)
      fun link w' => c.Reach k w w' ∧ w'.session.master = some link := by
  refine Meets.session.bind fun s => ?_
  cases hmaster : s.master with
  | some link =>
    refine .pure ?_
    rintro w' ⟨hreach, rfl⟩
    exact ⟨hreach, hmaster⟩
  | none =>
    refine Meets.of_each fun w₁ hw₁ => ((openMain_took attempt).reach hw₁.1).bind fun link => ?_
    obtain ⟨hreach, hs⟩ := hw₁
    rw [← hs] at hmaster
    refine Meets.bind (R := fun _ w' => c.Reach k w w' ∧ w'.session.master = some link) ?_
      fun _ => .pure fun _ h => h
    exact .modify fun w' h => ⟨h.reach_master hreach hmaster, rfl⟩

theorem mainLinkAt_walks (attempt : Nat) : c.Walks k (c.mainLinkAt attempt) :=
  walks_iff.mpr fun _ => ((mainLinkAt_reach attempt).imp fun _ _ h => h.1)

theorem linkFor_reach {read : Bool} (hread : read = true → k.reads = true) :
    Meets (c.Reach k w) (c.Reach k w) (c.Reach k w) (c.linkFor read)
      fun link w' => c.Reach k w w' ∧ Serves k link w' := by
  have hmain : Meets (c.Reach k w) (c.Reach k w) (c.Reach k w) c.mainLink
      fun link w' => c.Reach k w w' ∧ Serves k link w' :=
    (mainLinkAt_reach 0).imp fun _ _ h => ⟨h.1, .inl h.2⟩
  refine Meets.session.bind fun s => .ite (fun _ => hmain.of_imp fun _ h => h.1) fun hreplica => ?_
  simp only [Bool.or_eq_true, not_or, Bool.not_eq_true', Bool.not_eq_true, Bool.not_eq_false]
    at hreplica
  obtain ⟨⟨⟨hr, hactive⟩, henabled⟩, -⟩ := hreplica
  have hlevel : s.level = 0 := by simpa [Session.isActive] using hactive
  cases hs : s.replica with
  | some link =>
    refine .pure ?_
    rintro w' ⟨hreach, rfl⟩
    exact ⟨hreach, .inr ⟨hread hr, hlevel, henabled, hs⟩⟩
  | none =>
    refine Meets.of_each fun w₁ hw₁ => (openReplica_took.reach hw₁.1).bind fun found => ?_
    obtain ⟨hreach, hw₁⟩ := hw₁
    rw [← hw₁] at hlevel henabled hs
    cases found with
    | some link =>
      refine Meets.bind (R := fun _ w' => c.Reach k w w' ∧ Serves k link w') (.modify ?_)
        fun _ => .pure fun _ h => h
      intro w' htook
      have htook : Took c.connection.replicas w₁ link w' := htook
      exact ⟨htook.reach_replica hreach hs, .inr ⟨hread hr, by rw [htook.session]; exact hlevel,
        by rw [htook.session]; exact henabled, rfl⟩⟩
    | none =>
      refine Meets.bind (R := fun _ => c.Reach k w) (.modify fun w' hq => ?_) fun _ => hmain
      exact (hreach.tail (.quiet hq)).tail (.adjust rfl rfl rfl fun h => absurd rfl h)

/-! ## Giving connections back -/

theorem releaseMaster_reach : Meets (c.Reach k w) (c.Reach k w)
    (fun w' => c.Reach k w w' ∧ w'.session.level = 0) releaseMaster fun _ => c.Reach k w := by
  refine Meets.session.bind fun s => ?_
  cases hmaster : s.master with
  | some link =>
    rintro w' ⟨⟨hreach, hlevel⟩, rfl⟩
    exact hreach.tail (.releaseMaster hmaster hlevel)
  | none => exact .pure fun _ h => h.1.1

theorem releaseReplica_walks : c.Walks k (releaseReplica : Run σ Unit) := by
  refine walks_iff.mpr fun w => Meets.session.bind fun s => ?_
  cases hreplica : s.replica with
  | some link =>
    rintro w' ⟨hreach, rfl⟩
    exact hreach.tail (.releaseReplica hreplica)
  | none => exact .pure fun _ h => h.1

theorem dropMaster_reach : Meets (c.Reach k w) (c.Reach k w)
    (fun w' => c.Reach k w w' ∧ (w'.session.level ≠ 0 → k.parts = true)) dropMaster
      fun _ w' => c.Reach k w w' ∧ w'.session.master = none := by
  refine Meets.session.bind fun s => ?_
  cases hmaster : s.master with
  | some link =>
    rintro w' ⟨⟨hreach, hparts⟩, rfl⟩
    exact ⟨hreach.tail (.discardMaster hmaster hparts), rfl⟩
  | none =>
    refine .pure ?_
    rintro w' ⟨⟨hreach, -⟩, rfl⟩
    exact ⟨hreach, hmaster⟩

theorem dropReplica_walks : c.Walks k (dropReplica : Run σ Unit) := by
  refine walks_iff.mpr fun w => Meets.session.bind fun s => ?_
  cases hreplica : s.replica with
  | some link =>
    rintro w' ⟨hreach, rfl⟩
    exact hreach.tail (.discardReplica hreplica)
  | none => exact .pure fun _ h => h.1

theorem release_walks (force : Bool) : c.Walks k (c.release force) := by
  refine walks_iff.mpr fun w => Meets.session.bind fun s => .ite (fun hs => ?_) fun _ => ?_
  · have hlevel : s.level = 0 := by
      simp only [Bool.and_eq_true, Bool.not_eq_true'] at hs
      simpa [Session.isActive] using hs.1
    refine Meets.bind (releaseMaster_reach.of_imp fun w' h => ⟨h.1, h.2 ▸ hlevel⟩) fun _ => ?_
    refine (releaseReplica_walks.bind fun _ => ?_).keeps w
    exact .modifySession (fun _ => rfl) (fun _ => rfl) (fun _ => rfl) fun _ h => absurd rfl h
  · exact .pure fun _ h => h.1

/-- A new master connection is opened where the old one may be closed. -/
theorem reconnect_reach (attempt : Nat) : Meets (c.Reach k w) (c.Reach k w)
    (fun w' => c.Reach k w w' ∧ (w'.session.level ≠ 0 → k.parts = true)) (c.reconnect attempt)
      fun _ => c.Reach k w := by
  refine dropMaster_reach.bind fun _ => Meets.of_imp (fun _ h => h.1) ?_
  refine (dropReplica_walks.bind fun _ => (Walks.log _ _).bind fun _ => ?_).keeps w
  exact (mainLinkAt_walks attempt).bind fun _ => .pure ()

theorem reconnect_walks (hparts : k.parts = true) (attempt : Nat) :
    c.Walks k (c.reconnect attempt) :=
  walks_iff.mpr fun _ => (reconnect_reach attempt).of_imp fun _ h => ⟨h, fun _ => hparts⟩

theorem resetTransaction_walks (hturns : k.turns = true) :
    c.Walks k (Run.modifySession Session.resetTransaction : Run σ Unit) :=
  .modifySession (fun _ => rfl) (fun _ => rfl) (fun _ => rfl) fun _ _ => hturns

theorem discardMaster_walks (hparts : k.parts = true) (hturns : k.turns = true) :
    c.Walks k (discardMaster : Run σ Unit) := by
  refine Walks.bind (walks_iff.mpr fun w => ?_) fun _ => resetTransaction_walks hturns
  exact (dropMaster_reach.of_imp fun _ h => ⟨h, fun _ => hparts⟩).imp fun _ _ h => h.1

theorem close_walks (hparts : k.parts = true) (hturns : k.turns = true) : c.Walks k c.close := by
  have hclose : c.Walks k (do
      discardMaster
      dropReplica
      Run.modifySession fun s => { s with replicasDown := false }) := by
    refine (discardMaster_walks hparts hturns).bind fun _ => dropReplica_walks.bind fun _ => ?_
    exact .modifySession (fun _ => rfl) (fun _ => rfl) (fun _ => rfl) fun _ h => absurd rfl h
  refine .session fun s => ?_
  split
  · exact (Walks.log _ _).bind fun _ => hclose
  · exact hclose

theorem drop_walks : c.Walks .turning c.drop :=
  .session fun _ => .ite (close_walks rfl rfl) (release_walks true)

end Client

end QueryKit
