import QueryKit.Proofs.Transaction.Links
import QueryKit.Session.Schema

/-!
# Taking and giving back connections

- `Client.Linked level s`: the session is `s`, and its connections are as they must be when the
  master connection stands at a level.
- `Client.Sound`: the session knows at which level its master connection stands.
- `Client.mainLinkAt_meets`, `Client.linkFor_meets`, `Client.release_keeps`,
  `Client.reconnect_keeps`: operations on connections keep this.
-/

namespace QueryKit.Client

open Run

variable {σ α : Type} (c : Client σ) (replaces : Bool)

/-- The session is `s`, and its master connection stands at a level. -/
def Linked (level : Nat) (s : Session) (w : RunState σ) : Prop :=
  w.session = s ∧ Links c.connection replaces level w.journal w.nextLink s.master s.replica

/-- The session is at the level at which its master connection stands. -/
def Sound (w : RunState σ) : Prop :=
  c.Linked replaces w.session.level w.session w ∧
    (w.session.level = 0 → w.session.isolation = none)

/-- No open transaction was given back, and no connection with a failed one was kept. -/
def Safe (w : RunState σ) : Prop :=
  w.journal.ReleasesIdle replaces ∧ w.journal.DiscardsFailed

/-- A connection that session `s` does not hold yet. -/
def Free (s : Session) (link : Link) (w : RunState σ) : Prop :=
  Spare replaces w.journal w.nextLink s.master s.replica link

variable {c replaces} {level : Nat} {s s' : Session} {link : Link} {w : RunState σ}

theorem Linked.safe (h : c.Linked replaces level s w) : Safe replaces w :=
  ⟨h.2.released, h.2.discarded⟩

theorem Linked.sound (h : c.Linked replaces level s w) (hlevel : s.level = level)
    (hs : s.level = 0 → s.isolation = none) : c.Sound replaces w := by
  obtain ⟨rfl, hlinks⟩ := h
  rw [← hlevel] at hlinks
  exact ⟨⟨rfl, hlinks⟩, hs⟩

theorem Sound.safe (h : c.Sound replaces w) : Safe replaces w :=
  h.1.safe

theorem linked_stable : Stable (c.Linked replaces level s) := by
  rintro w w' hq ⟨hs, hlinks⟩
  obtain ⟨logs, hj, hlogs⟩ := hq.journal
  refine ⟨hq.session.trans hs, ?_⟩
  rw [hj, hq.nextLink]
  exact hlinks.logs hlogs

theorem sound_stable : Stable (c.Sound replaces) := by
  rintro w w' hq ⟨hlinked, hisolation⟩
  rw [Sound, hq.session]
  exact ⟨linked_stable w w' hq hlinked, hisolation⟩

theorem free_stable : Stable (Free replaces s link : RunState σ → Prop) := by
  intro w w' hq h
  obtain ⟨logs, hj, hlogs⟩ := hq.journal
  rw [Free, hj, hq.nextLink]
  exact h.logs hlogs

theorem Linked.quiet {x : Run σ α} (hx : IsQuiet x) :
    Meets (c.Linked replaces level s) (Safe replaces) (c.Linked replaces level s) x
      fun _ => c.Linked replaces level s :=
  .quiet hx linked_stable (fun _ h => h) fun _ h => h.safe

theorem Sound.quiet {x : Run σ α} (hx : IsQuiet x) : Keeps (c.Sound replaces) (Safe replaces) x :=
  .quiet hx sound_stable (fun _ h => h) fun _ h => h.safe

/-! ## Steps that touch no connection -/

theorem isServerDead_quiet (dsn : String) : IsQuiet (isServerDead dsn : Run σ Bool) := by
  refine IsQuiet.state.bind fun w => ?_
  split
  · exact .pure
  · refine IsQuiet.now.bind fun _ => .ite .pure (.bind (.modify fun _ => ?_) fun _ => .pure)
    exact .of_eq rfl rfl rfl

theorem markServerDead_quiet (dsn : String) : IsQuiet (c.markServerDead dsn) :=
  IsQuiet.now.bind fun _ => .modify fun _ => .of_eq rfl rfl rfl

theorem arranged_quiet (shuffled : Bool) (pools : List Pool) :
    IsQuiet (c.arranged shuffled pools) :=
  .ite (.observe _) .pure

/-! ## Taking connections -/

theorem acquire_meets (pool : Pool) :
    Meets (c.Linked replaces level s) (Safe replaces) (c.Linked replaces level s) (c.acquire pool)
      fun link w => c.Linked replaces level s w ∧ Free replaces s link w := by
  refine Meets.bind (Linked.quiet (.ask _)) fun _ => Meets.state.bind fun w => ?_
  rintro _ ⟨⟨hs, hlinks⟩, rfl⟩
  obtain ⟨hlinks', hspare⟩ := hlinks.acquired pool
  exact ⟨⟨hs, hlinks'⟩, hspare⟩

theorem openFirst_meets : ∀ pools : List Pool,
    Meets (c.Linked replaces level s) (Safe replaces) (c.Linked replaces level s)
      (c.openFirst pools)
      fun found w => c.Linked replaces level s w ∧ ∀ link ∈ found, Free replaces s link w
  | [] => .pure fun _ hw => ⟨hw, nofun⟩
  | pool :: pools => by
    refine (Linked.quiet (isServerDead_quiet _)).bind fun dead => ?_
    refine .ite (fun _ => openFirst_meets pools) fun _ => ?_
    refine (acquire_meets pool).attempt.bind fun r => ?_
    cases r with
    | ok link =>
      refine .pure fun w hw => ⟨hw.1, fun l hl => ?_⟩
      cases hl
      exact hw.2
    | error e =>
      refine (Meets.log linked_stable _ _).bind fun _ => ?_
      exact (Linked.quiet (markServerDead_quiet _)).bind fun _ => openFirst_meets pools

theorem openMain_meets (attempt : Nat) :
    Meets (c.Linked replaces level s) (Safe replaces) (c.Linked replaces level s)
      (c.openMain attempt)
      fun link w => c.Linked replaces level s w ∧ Free replaces s link w := by
  refine .ite (fun _ => ?_) fun _ => ?_
  · refine (Linked.quiet (arranged_quiet _ _)).bind fun pools => ?_
    refine (openFirst_meets pools).bind fun found => ?_
    cases found with
    | some link => exact .pure fun w hw => ⟨hw.1, hw.2 link rfl⟩
    | none => exact .fail fun w hw => hw.1
  · split
    · exact .fail fun _ hw => hw
    · refine (acquire_meets _).bind fun link => ?_
      have hstable : Stable fun w => c.Linked replaces level s w ∧ Free replaces s link w :=
        fun w w' hq hw => ⟨linked_stable w w' hq hw.1, free_stable w w' hq hw.2⟩
      refine .ite (fun _ => ?_) fun _ => .pure fun _ hw => hw
      exact (Meets.log hstable _ _).bind fun _ => .pure fun _ hw => hw

theorem openReplica_meets :
    Meets (c.Linked replaces level s) (Safe replaces) (c.Linked replaces level s) c.openReplica
      fun found w => c.Linked replaces level s w ∧ ∀ link ∈ found, Free replaces s link w :=
  .ite
    (fun _ => (Linked.quiet (arranged_quiet _ _)).bind fun pools => openFirst_meets pools)
    fun _ => .pure fun _ hw => ⟨hw, nofun⟩

/-- The session holds the master connection that is found. When none can be opened, it holds none.
-/
theorem mainLinkAt_meets (attempt : Nat) :
    Meets (fun w => s.master = none ∧ c.Linked replaces level s w) (Safe replaces)
      (c.Linked replaces level s) (c.mainLinkAt attempt)
      fun link => c.Linked replaces level { s with master := some link } := by
  refine Meets.session.bind fun s₀ => ?_
  cases hmaster : s₀.master with
  | some link =>
    refine .pure fun w hw => ?_
    obtain ⟨hw, rfl⟩ := hw
    have hs : s = { s with master := some link } := by
      rw [← hmaster, hw.1]
    rwa [← hs]
  | none =>
    refine Meets.of_imp (P := fun w => s.master = none ∧ c.Linked replaces level s w) ?_ ?_
    · rintro w ⟨hw, rfl⟩
      exact ⟨by rw [← hw.1, hmaster], hw⟩
    · refine Meets.of_fact fun hs => ?_
      refine Meets.bind
        ((openMain_meets attempt).of_failed fun _ h => ⟨hs, h⟩)
        fun link => Meets.bind
          (R := fun _ => c.Linked replaces level { s with master := some link })
          (.modify ?_) fun _ => .pure fun _ hw => hw
      rintro w ⟨⟨rfl, hlinks⟩, hfree⟩
      rw [Free, hs] at hfree
      rw [hs] at hlinks
      exact ⟨rfl, hlinks.withMaster hfree⟩

/-- What holds for a session that is in accord with its master connection holds of any sound state.
-/
theorem Sound.meets {I J : RunState σ → Prop} {x : Run σ α} {Q : α → RunState σ → Prop}
    (h : ∀ s : Session, (s.level = 0 → s.isolation = none) →
      Meets I J (c.Linked replaces s.level s) x Q) : Meets I J (c.Sound replaces) x Q :=
  fun w hw => h w.session hw.2 w hw.1

theorem mainLink_meets :
    Meets (c.Sound replaces) (Safe replaces) (c.Sound replaces) c.mainLink
      fun link w => c.Sound replaces w ∧ link.number < w.nextLink := by
  refine Sound.meets fun s hs => ?_
  refine ((mainLinkAt_meets 0).of_failed fun w h => h.2.sound rfl hs).imp fun link w h => ?_
  exact ⟨h.sound rfl hs, h.2.master_lt link rfl⟩

/-- A statement gets a connection that was taken before. -/
theorem linkFor_meets (read : Bool) :
    Meets (c.Sound replaces) (Safe replaces) (c.Sound replaces) (c.linkFor read)
      fun link w => c.Sound replaces w ∧ link.number < w.nextLink := by
  refine Meets.session.bind fun s => ?_
  refine .ite (fun _ => mainLink_meets.of_imp fun w h => h.1) fun _ => ?_
  cases hreplica : s.replica with
  | some link =>
    refine .pure fun w hw => ?_
    obtain ⟨hw, rfl⟩ := hw
    exact ⟨hw, hw.1.2.replica_lt link hreplica⟩
  | none =>
    refine Meets.of_imp (P := fun w => (s.level = 0 → s.isolation = none) ∧
      c.Linked replaces s.level s w) ?_ (.of_fact fun hs => ?_)
    · rintro w ⟨hw, rfl⟩
      exact ⟨hw.2, hw.1⟩
    · refine (openReplica_meets.of_failed fun w h => h.sound rfl hs).bind fun found => ?_
      cases found with
      | some link =>
        refine Meets.bind (R := fun _ w => c.Sound replaces w ∧ link.number < w.nextLink)
          (.modify ?_) fun _ => .pure fun _ hw => hw
        rintro w ⟨⟨rfl, hlinks⟩, hfree⟩
        have hfree := hfree link rfl
        rw [Free, hreplica] at hfree
        rw [hreplica] at hlinks
        exact ⟨⟨⟨rfl, hlinks.withReplica hfree⟩, hs⟩, hfree.lt⟩
      | none =>
        refine Meets.bind (R := fun _ => c.Sound replaces) (.modify ?_) fun _ => mainLink_meets
        rintro w ⟨⟨rfl, hlinks⟩, -⟩
        exact ⟨⟨rfl, hlinks⟩, hs⟩

/-! ## Giving connections back and closing them -/

theorem Session.eq_of_master {s : Session} {master : Option Link} (h : s.master = master) :
    { s with master } = s := by
  cases h
  rfl

theorem Session.eq_of_replica {s : Session} {replica : Option Link} (h : s.replica = replica) :
    { s with replica } = s := by
  cases h
  rfl

variable {I J : RunState σ → Prop}

theorem releaseMaster_meets :
    Meets I J (c.Linked replaces 0 s) releaseMaster
      fun _ => c.Linked replaces 0 { s with master := none } := by
  refine Meets.session.bind fun s₀ => ?_
  cases hmaster : s₀.master with
  | some link =>
    rintro w ⟨⟨rfl, hlinks⟩, rfl⟩
    refine ⟨rfl, hlinks.noMaster.of_isSilent trivial fun l hl => ?_⟩
    cases hl
    exact (hlinks.master_at link hmaster).eq_idle
  | none =>
    refine .pure ?_
    rintro w ⟨hw, rfl⟩
    rwa [← hw.1, Session.eq_of_master hmaster, hw.1]

theorem releaseReplica_meets :
    Meets I J (c.Linked replaces level s) releaseReplica
      fun _ => c.Linked replaces level { s with replica := none } := by
  refine Meets.session.bind fun s₀ => ?_
  cases hreplica : s₀.replica with
  | some link =>
    rintro w ⟨⟨rfl, hlinks⟩, rfl⟩
    refine ⟨rfl, hlinks.noReplica.of_isSilent trivial fun l hl => ?_⟩
    cases hl
    exact hlinks.replica_idle link hreplica
  | none =>
    refine .pure ?_
    rintro w ⟨hw, rfl⟩
    rwa [← hw.1, Session.eq_of_replica hreplica, hw.1]

theorem dropMaster_meets :
    Meets I J (c.Linked replaces level s) dropMaster
      fun _ => c.Linked replaces 0 { s with master := none } := by
  refine Meets.session.bind fun s₀ => ?_
  cases hmaster : s₀.master with
  | some link =>
    rintro w ⟨⟨rfl, hlinks⟩, rfl⟩
    exact ⟨rfl, hlinks.noMaster.of_isSilent trivial nofun⟩
  | none =>
    refine .pure ?_
    rintro w ⟨⟨rfl, hlinks⟩, rfl⟩
    rw [Session.eq_of_master hmaster]
    rw [hmaster] at hlinks
    refine ⟨rfl, ?_⟩
    rw [hmaster]
    exact hlinks.noMaster

theorem dropReplica_meets :
    Meets I J (c.Linked replaces level s) dropReplica
      fun _ => c.Linked replaces level { s with replica := none } := by
  refine Meets.session.bind fun s₀ => ?_
  cases hreplica : s₀.replica with
  | some link =>
    rintro w ⟨⟨rfl, hlinks⟩, rfl⟩
    exact ⟨rfl, hlinks.noReplica.of_isSilent trivial nofun⟩
  | none =>
    refine .pure ?_
    rintro w ⟨hw, rfl⟩
    rwa [← hw.1, Session.eq_of_replica hreplica, hw.1]

/-- A step that changes neither the connections nor what is believed of them. -/
theorem modifySession_meets {f : Session → Session} (hmaster : (f s).master = s.master)
    (hreplica : (f s).replica = s.replica) :
    Meets I J (c.Linked replaces level s) (Run.modifySession f)
      fun _ => c.Linked replaces level (f s) := by
  rintro w ⟨rfl, hlinks⟩
  refine ⟨rfl, ?_⟩
  rwa [hmaster, hreplica]

/-- Both connections go back, without a transaction. -/
theorem releaseBoth_meets :
    Meets I J (c.Linked replaces 0 s)
      (do
        releaseMaster
        releaseReplica
        Run.modifySession fun s => { s with replicasDown := false })
      fun _ => c.Linked replaces 0
        { s with master := none, replica := none, replicasDown := false } :=
  releaseMaster_meets.bind fun _ => releaseReplica_meets.bind fun _ => modifySession_meets rfl rfl

/-- Connections go back only from a session that is in no transaction. -/
theorem release_keeps (force : Bool) :
    Keeps (c.Sound replaces) (Safe replaces) (c.release force) := by
  refine Sound.meets fun s hs => Meets.session.bind fun s₀ => ?_
  refine .ite (fun hinactive => ?_) fun _ => .pure fun w hw => hw.1.sound rfl hs
  refine Meets.of_imp (P := fun w => s.level = 0 ∧ c.Linked replaces 0 s w) ?_ ?_
  · rintro w ⟨hlinked, rfl⟩
    have hlevel : s.level = 0 := by
      rw [← hlinked.1]
      simp [Session.isActive] at hinactive
      exact hinactive.1
    rw [hlevel] at hlinked
    exact ⟨hlevel, hlinked⟩
  · refine .of_fact fun hlevel => releaseBoth_meets.imp fun _ w hw => ?_
    exact hw.sound hlevel hs

/-- Outside a transaction the connections are closed and a new one is opened. -/
theorem reconnect_keeps (attempt : Nat) :
    Meets (c.Sound replaces) (Safe replaces)
      (fun w => c.Sound replaces w ∧ w.session.isActive = false) (c.reconnect attempt)
      fun _ => c.Sound replaces := by
  have hP : ∀ w, c.Sound replaces w ∧ w.session.isActive = false →
      ∃ s : Session, (s.level = 0 ∧ s.isolation = none) ∧ c.Linked replaces 0 s w := by
    rintro w ⟨⟨hlinked, hisolation⟩, hactive⟩
    have hlevel : w.session.level = 0 := by simpa [Session.isActive] using hactive
    rw [hlevel] at hlinked
    exact ⟨w.session, ⟨hlevel, hisolation hlevel⟩, hlinked⟩
  refine Meets.of_imp hP (.of_exists fun s => .of_fact fun hs => ?_)
  have hsound : ∀ {s' : Session} {w}, c.Linked replaces 0 s' w → s'.level = s.level →
      s'.isolation = s.isolation → c.Sound replaces w := fun hw hl hi =>
    hw.sound (hl.trans hs.1) fun _ => hi.trans hs.2
  refine dropMaster_meets.bind fun _ => dropReplica_meets.bind fun _ => ?_
  refine (Meets.log linked_stable _ _).bind fun _ => ?_
  refine Meets.bind ((mainLinkAt_meets attempt).of_failed fun w h => ?_) fun link =>
    .pure fun w hw => ?_
  · exact hsound h.2 rfl rfl
  · exact hsound hw rfl rfl

/-- The master connection is closed, and the transaction on it is forgotten. -/
theorem discardMaster_meets :
    Meets I J (c.Linked replaces level s) discardMaster
      fun _ => c.Linked replaces 0 { s with master := none, level := 0, isolation := none } :=
  dropMaster_meets.bind fun _ => modifySession_meets rfl rfl

/-- Both connections are closed. -/
theorem closeBoth_meets :
    Meets I J (c.Linked replaces level s)
      (do
        discardMaster
        dropReplica
        Run.modifySession fun s => { s with replicasDown := false })
      fun _ => c.Linked replaces 0 { s with
        master := none
        replica := none
        replicasDown := false
        level := 0
        isolation := none } :=
  discardMaster_meets.bind fun _ => dropReplica_meets.bind fun _ => modifySession_meets rfl rfl

theorem close_meets :
    Meets I J (c.Linked replaces level s) c.close fun _ => c.Linked replaces 0 { s with
      master := none
      replica := none
      replicasDown := false
      level := 0
      isolation := none } := by
  refine Meets.session.bind fun s₀ => Meets.of_imp (fun _ h => h.1) ?_
  split
  · exact (Meets.log linked_stable _ _).bind fun _ => closeBoth_meets
  · exact closeBoth_meets

theorem close_keeps : Keeps (c.Sound replaces) (Safe replaces) c.close :=
  Sound.meets fun _ _ => close_meets.imp fun _ _ hw => hw.sound rfl fun _ => rfl

/-- A session that ends holds nothing. -/
theorem drop_meets :
    Meets I (Safe replaces) (c.Sound replaces) c.drop fun _ w => ∃ s : Session,
      (s.level = 0 ∧ s.isolation = none ∧ s.master = none ∧ s.replica = none) ∧
        c.Linked replaces 0 s w := by
  refine Sound.meets fun s hs => Meets.session.bind fun s₀ => ?_
  refine .ite (fun _ => Meets.of_imp (fun _ h => h.1) ?_) fun hinactive => ?_
  · exact close_meets.imp fun _ w hw => ⟨_, ⟨rfl, rfl, rfl, rfl⟩, hw⟩
  · refine Meets.of_imp (P := fun w => (s.level = 0 ∧ s.isActive = false) ∧ c.Linked replaces 0 s w)
      ?_ (.of_fact fun ⟨hlevel, hactive⟩ => ?_)
    · rintro w ⟨hlinked, rfl⟩
      have hactive : s.isActive = false := by
        rw [← hlinked.1]
        exact Bool.not_eq_true _ ▸ hinactive
      have hlevel : s.level = 0 := by simpa [Session.isActive] using hactive
      rw [hlevel] at hlinked
      exact ⟨⟨hlevel, hactive⟩, hlinked⟩
    · refine Meets.session.bind fun s₁ => .ite (fun _ => Meets.of_imp (fun _ h => h.1) ?_) ?_
      · refine releaseBoth_meets.imp fun _ w hw => ?_
        refine ⟨_, ?_, hw⟩
        exact ⟨hlevel, hs hlevel, rfl, rfl⟩
      · rintro hkept w ⟨hlinked, rfl⟩
        rw [hlinked.1, hactive] at hkept
        exact absurd rfl hkept

theorem drop_keeps : Keeps (c.Sound replaces) (Safe replaces) c.drop := by
  refine drop_meets.imp ?_
  rintro _ w ⟨s, ⟨hlevel, hisolation, -⟩, hw⟩
  exact hw.sound hlevel fun _ => hisolation

/-- Another session begins with nothing. -/
theorem renew_keeps : Keeps (c.Sound replaces) (Safe replaces) c.renew := by
  refine Meets.bind drop_meets fun _ => .of_exists fun s => .of_fact fun hs => ?_
  obtain ⟨-, -, hmaster, hreplica⟩ := hs
  refine (modifySession_meets hmaster.symm hreplica.symm).imp fun _ w hw => ?_
  exact hw.sound rfl fun _ => rfl

end QueryKit.Client
