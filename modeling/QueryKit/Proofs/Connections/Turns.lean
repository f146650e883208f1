import QueryKit.Proofs.Connections.Accounts

/-!
# What operations on transactions leave behind

- `Client.Underway`: an operation has sent its statements on the master connection that the session
  holds; `Client.Finished`: the session is left without a master connection and at level 0.
- `Client.control_underway`: a statement of an operation keeps it under way, or finishes it.
- `Call.turned`: every operation on transactions, from any state. When it is cancelled the session
  is at the level that `Call.levelLeft` says.
-/

namespace QueryKit

namespace Client

open Run

variable {σ α : Type} {c : Client σ}

/-- An operation is under way that started with a master connection, if there was one, and a
journal. The session still holds that connection, or has opened one, and all statements went there,
those in `ran` with success. -/
structure Underway (held : Option Link) (j : Journal) (level : Nat) (ran : List String)
    (w : RunState σ) : Prop where
  level : w.session.level = level
  kept : ∀ link ∈ held, w.session.master = some link
  sends : ∃ new, w.journal = new ++ j ∧
    (∀ link sql values ending, .sent link sql values ending ∈ new →
      w.session.master = some link) ∧
    ∀ sql ∈ ran, ∃ link, w.session.master = some link ∧ .sent link sql [] .done ∈ new

/-- The operation has left nothing. It has used one connection at most: the master connection, if
there was one at first. -/
structure Finished (held : Option Link) (j : Journal) (w : RunState σ) : Prop where
  level : w.session.level = 0
  master : w.session.master = none
  sends : ∃ new used, w.journal = new ++ j ∧ (∀ link ∈ held, used = some link) ∧
    ∀ link sql values ending, .sent link sql values ending ∈ new → used = some link

variable {held : Option Link} {j : Journal} {n : Nat} {ran : List String} {w w' : RunState σ}
  {link : Link} {sql : String}

namespace Underway

theorem start (h : w.session.level = n) : Underway w.session.master w.journal n [] w :=
  ⟨h, fun _ h => h, [], rfl, nofun, nofun⟩

theorem mono {ran' : List String} (h : Underway held j n ran w) (hran : ∀ sql ∈ ran', sql ∈ ran) :
    Underway held j n ran' w := by
  obtain ⟨new, hj, hsent, hran'⟩ := h.sends
  exact ⟨h.level, h.kept, new, hj, hsent, fun sql hsql => hran' sql (hran sql hsql)⟩

/-- The level changes. -/
theorem withSession (h : Underway held j n ran w) {s : Session}
    (hmaster : s.master = w.session.master) :
    Underway held j s.level ran { w with session := s } := by
  obtain ⟨new, hj, hsent, hran⟩ := h.sends
  refine ⟨rfl, fun link hl => hmaster.trans (h.kept link hl), new, hj,
    fun link sql values ending hmem => hmaster.trans (hsent link sql values ending hmem),
    fun sql hsql => ?_⟩
  obtain ⟨link, hlink, hmem⟩ := hran sql hsql
  exact ⟨link, hmaster.trans hlink, hmem⟩

/-- Events that are no statements happen, and no other connection is held. -/
theorem silent (h : Underway held j n ran w) {more : List Event}
    (hsession : w'.session = w.session) (hj : w'.journal = more ++ w.journal)
    (hmore : ∀ e ∈ more, e.IsSilent) : Underway held j n ran w' := by
  obtain ⟨new, hnew, hsent, hran⟩ := h.sends
  rw [← hsession] at hsent hran
  refine ⟨by rw [hsession]; exact h.level, by rw [hsession]; exact h.kept, more ++ new,
    by rw [hj, hnew, List.append_assoc], fun link sql values ending hmem => ?_, fun sql hsql => ?_⟩
  · rcases List.mem_append.mp hmem with hmem | hmem
    · exact (hmore _ hmem).elim
    · exact hsent link sql values ending hmem
  · obtain ⟨link, hlink, hmem⟩ := hran sql hsql
    exact ⟨link, hlink, List.mem_append_right _ hmem⟩

theorem of_quiet (h : Underway held j n ran w) (hq : Quiet w w') : Underway held j n ran w' := by
  obtain ⟨more, hj, hmore⟩ := hq.silent
  exact h.silent hq.session hj hmore

/-- A connection is held now, and was not before. -/
theorem withMaster (h : Underway held j n ran w) (hmaster : w.session.master = none) (link : Link) :
    Underway held j n ran { w with session := { w.session with master := some link } } := by
  obtain ⟨new, hj, hsent, hran⟩ := h.sends
  refine ⟨h.level, fun l hl => ?_, new, hj, fun l sql values ending hmem => ?_, fun sql hsql => ?_⟩
  · cases hmaster.symm.trans (h.kept l hl)
  · cases hmaster.symm.trans (hsent l sql values ending hmem)
  · obtain ⟨l, hl, -⟩ := hran sql hsql
    cases hmaster.symm.trans hl

/-- A statement is sent on the connection that is held. -/
theorem sent (h : Underway held j n ran w) (hmaster : w.session.master = some link)
    {ending : Ending} {ran' : List String} (servers : σ)
    (hran' : ∀ text ∈ ran', text ∈ ran ∨ (text = sql ∧ ending = .done)) :
    Underway held j n ran'
      { w with servers, journal := .sent link sql [] ending :: w.journal } := by
  obtain ⟨new, hj, hsent, hran⟩ := h.sends
  refine ⟨h.level, h.kept, .sent link sql [] ending :: new, congrArg _ hj,
    fun l text values ending' hmem => ?_, fun text htext => ?_⟩
  · rcases List.mem_cons.mp hmem with heq | hmem
    · cases heq
      exact hmaster
    · exact hsent l text values ending' hmem
  · rcases hran' text htext with htext | ⟨rfl, rfl⟩
    · obtain ⟨l, hl, hmem⟩ := hran text htext
      exact ⟨l, hl, List.mem_cons_of_mem _ hmem⟩
    · exact ⟨link, hmaster, List.mem_cons_self⟩

/-- The connection is given back or closed, and the session is at level 0. -/
theorem parted (h : Underway held j n ran w) (more : List Event) (hmore : ∀ e ∈ more, e.IsSilent)
    (hj : w'.journal = more ++ w.journal) (hmaster : w'.session.master = none)
    (hlevel : w'.session.level = 0) : Finished held j w' := by
  obtain ⟨new, hnew, hsent, -⟩ := h.sends
  refine ⟨hlevel, hmaster, more ++ new, w.session.master, by rw [hj, hnew, List.append_assoc],
    h.kept, fun link sql values ending hmem => ?_⟩
  rcases List.mem_append.mp hmem with hmem | hmem
  · exact (hmore _ hmem).elim
  · exact hsent link sql values ending hmem

end Underway

theorem underway_stable : Stable (Underway held j n ran : RunState σ → Prop) :=
  fun _ _ hq h => h.of_quiet hq

/-! ## Statements -/

theorem mainLinkAt_underway (attempt : Nat) :
    Meets (fun w : RunState σ => Underway held j n ran w ∧ w.session.master = none)
      (Underway held j n ran) (Underway held j n ran) (c.mainLinkAt attempt)
      fun link w => Underway held j n ran w ∧ w.session.master = some link := by
  refine Meets.session.bind fun s => ?_
  cases hmaster : s.master with
  | some link =>
    refine .pure ?_
    rintro w ⟨h, rfl⟩
    exact ⟨h, hmaster⟩
  | none =>
    refine Meets.of_each ?_
    rintro w ⟨h, rfl⟩
    have hquiet : ∀ w', Quiet w w' → Underway held j n ran w' ∧ w'.session.master = none :=
      fun w' hq => ⟨h.of_quiet hq, by rw [hq.session]; exact hmaster⟩
    refine Meets.bind ((openMain_took (w := w) attempt).mono (fun _ h => h ▸ .refl) (fun _ _ h => h)
      hquiet fun w' hq => (hquiet w' hq).1) fun link => ?_
    refine Meets.bind (R := fun _ w' => Underway held j n ran w' ∧ w'.session.master = some link)
      (.modify fun w' htook => ?_) fun _ => .pure fun _ h => h
    have htook : Took c.connection.mains w link w' := htook
    obtain ⟨more, hj, hmore⟩ := htook.journal
    refine ⟨(h.silent htook.session hj hmore).withMaster ?_ link, rfl⟩
    rw [htook.session]
    exact hmaster

/-- A statement of an operation runs, or the operation has come to its end. -/
theorem control_underway (sql : String) :
    Meets (Finished held j) (Underway held j n ran) (Underway held j n ran) (c.control sql)
      fun _ => Underway held j n (sql :: ran) := by
  refine (mainLinkAt_underway 0).attempt.bind fun r => ?_
  cases r with
  | error e =>
    refine Meets.bind (R := fun _ => Finished held j) (.modify ?_) fun _ => .fail fun _ h => h
    rintro w ⟨h, hmaster⟩
    exact h.parted [] nofun rfl hmaster rfl
  | ok link =>
    have hsend : Meets (fun w => Underway held j n ran w ∧ w.session.master = some link)
        (Underway held j n ran) (fun w => Underway held j n ran w ∧ w.session.master = some link)
        (Run.send link sql [] (c.backend.execute link sql []))
        fun _ => Underway held j n (sql :: ran) := by
      rintro w ⟨h, hmaster⟩
      unfold Run.send
      rcases c.backend.execute link sql [] w.servers with ⟨a | e | _, servers⟩
      · exact h.sent hmaster servers fun text htext => by
          rcases List.mem_cons.mp htext with rfl | htext
          · exact .inr ⟨rfl, rfl⟩
          · exact .inl htext
      · exact ⟨h.sent hmaster servers fun _ => .inl, hmaster⟩
      · exact h.sent hmaster servers fun _ => .inl
    refine hsend.attempt.bind fun r => ?_
    cases r with
    | ok executed => exact .pure fun _ h => h
    | error e =>
      refine Meets.bind (R := fun _ => Finished held j) ?_ fun _ => .fail fun _ h => h
      rintro w ⟨h, hmaster⟩
      rw [discardMaster_eq hmaster]
      exact h.parted [.discarded link] (by simp [Event.IsSilent]) rfl rfl rfl

theorem controlAll_underway : ∀ {ran : List String} (statements : List String),
    Meets (Finished held j) (Underway held j n []) (Underway held j n ran)
      (c.controlAll statements) fun _ => Underway held j n (statements.reverse ++ ran)
  | _, [] => .pure fun _ h => h
  | ran, sql :: statements => by
    refine Meets.bind ((control_underway sql).mono (fun _ h => h) (fun _ _ h => h) (fun _ h => h)
      fun _ h => h.mono nofun) fun _ => ?_
    refine (controlAll_underway statements).imp fun _ _ h => h.mono fun text htext => ?_
    simpa [or_assoc] using htext

theorem modifySession_underway {I J : RunState σ → Prop} {f : Session → Session} {m : Nat}
    (hmaster : ∀ s, (f s).master = s.master) (hlevel : ∀ s, s.level = n → (f s).level = m) :
    Meets I J (Underway held j n ran) (Run.modifySession f) fun _ => Underway held j m ran :=
  .modify fun w h => by
    have hn := hlevel w.session h.level
    exact hn ▸ h.withSession (hmaster w.session)

/-- At level 0 both connections are given back. -/
theorem release_underway {I J : RunState σ → Prop} :
    Meets I J (Underway held j 0 ran) (c.release true) fun _ => Finished held j := by
  intro w h
  rw [release_eq h.level rfl]
  refine h.parted ((w.session.replica.toList ++ w.session.master.toList).map .released)
    (fun e he => ?_) rfl rfl h.level
  obtain ⟨link, -, rfl⟩ := List.mem_map.mp he
  trivial

/-! ## Operations -/

/-- How an operation on transactions leaves a session, unless it is cancelled: without a transaction
and without a master connection, as it was, or in a transaction. If it was in none, then the
operation has begun one, and `BEGIN` has run on the connection that is held. -/
def Turned (c : Client σ) (begins : Bool) (w w' : RunState σ) : Prop :=
  Finished w.session.master w.journal w' ∨ Quiet w w' ∨
    ∃ n ran, Underway w.session.master w.journal (n + 1) ran w' ∧
      (w.session.level = 0 → begins = true ∧ c.connection.dialect.beginSql ∈ ran)

/-- An operation on transactions that leaves the session at a level when it is cancelled. -/
abbrev Turns (c : Client σ) (begins : Bool) (left : Nat) (w : RunState σ) (P : RunState σ → Prop)
    (x : Run σ α) : Prop :=
  Meets (Turned c begins w) (Underway w.session.master w.journal left []) P x
    fun _ => Turned c begins w

variable {begins : Bool} {left : Nat} {P : RunState σ → Prop}

theorem Turned.inner (h : Underway w.session.master w.journal (n + 1) ran w')
    (hlevel : w.session.level ≠ 0) : Turned c begins w w' :=
  .inr (.inr ⟨n, ran, h, fun h => absurd h hlevel⟩)

theorem beginSql_mem {d : Dialect} {isolation : Option IsolationLevel} {statements : List String}
    (h : beginStatements d isolation = .ok statements) : d.beginSql ∈ statements := by
  unfold beginStatements at h
  cases isolation with
  | none =>
    cases h
    exact List.mem_singleton_self _
  | some level =>
    simp only [Bind.bind, Except.bind] at h
    split at h
    · cases h
    · cases h
      split <;> simp

theorem begin_turns (isolation : Option IsolationLevel) (w : RunState σ) :
    Turns c true w.session.level w (fun w' => w' = w) (c.begin isolation) := by
  refine Meets.session_of ?_
  dsimp only
  have hstart : ∀ w', w' = w → Underway w.session.master w.journal w.session.level [] w' := by
    rintro _ rfl
    exact .start rfl
  split
  · refine Meets.bind (R := fun statements w' => c.connection.dialect.beginSql ∈ statements ∧
      Underway w.session.master w.journal w.session.level [] w') ?_ fun statements =>
        .of_fact fun hbegin => ?_
    · refine .ofResult (fun statements hok w' hw => ⟨beginSql_mem hok, hstart w' hw⟩) ?_
      rintro _ rfl
      exact .inr (.inl .refl)
    · refine (Meets.log underway_stable _ _).bind fun _ => ?_
      refine Meets.bind ((controlAll_underway statements).of_failed fun _ h => .inl h) fun _ => ?_
      refine Meets.imp (modifySession_underway (m := 1) (fun _ => rfl) fun _ _ => rfl) fun _ w' h =>
        .inr (.inr ⟨0, _, h, fun _ => ⟨rfl, ?_⟩⟩)
      exact List.mem_append_left _ (List.mem_reverse.mpr hbegin)
  · next hlevel =>
    refine Meets.of_imp hstart (.ite (fun _ => ?_) fun _ => ?_)
    · refine (Meets.log underway_stable _ _).bind fun _ => ?_
      refine Meets.bind ((control_underway _).of_failed fun _ h => .inl h) fun _ => ?_
      exact Meets.imp (modifySession_underway (fun _ => rfl) fun _ hn => congrArg Nat.succ hn)
        fun _ w' h => Turned.inner h hlevel
    · refine (Meets.log underway_stable _ _).bind fun _ => .fail fun w' h => ?_
      obtain ⟨n, hn⟩ := Nat.exists_eq_succ_of_ne_zero hlevel
      rw [hn] at h
      exact Turned.inner h hlevel

theorem leaveLevel_underway {I J : RunState σ → Prop} :
    Meets I J (Underway held j (n + 1) ran) leaveLevel
      fun level w => level = n ∧ Underway held j n ran w := by
  refine Meets.bind (R := fun _ => Underway held j n ran) ?_ fun _ => Meets.session.bind fun s => ?_
  · exact modifySession_underway (fun _ => rfl) fun _ hn => Nat.sub_eq_of_eq_add hn
  · refine .pure ?_
    rintro w ⟨h, rfl⟩
    exact ⟨h.level, h⟩

theorem endOutermost_turns {message sql : String} :
    Turns c begins 0 w (Underway w.session.master w.journal 0 []) (c.endOutermost message sql) := by
  refine (Meets.log underway_stable _ _).bind fun _ => ?_
  refine Meets.bind (modifySession_underway (fun _ => rfl) fun _ hn => hn) fun _ => ?_
  refine Meets.bind ((control_underway _).of_failed fun _ h => .inl h) fun _ => ?_
  exact release_underway.imp fun _ w' h => .inl h

/-- The innermost level ends with one statement if it is the outermost one, and with another, or
with none, if it is a savepoint. -/
theorem endLevel_turns {message outermost unsupported : String} {text : Nat → String}
    (inner : Nat → String) (hlevel : w.session.level = n + 1) :
    Turns c begins n w (fun w' => w' = w)
      (do
        let level ← leaveLevel
        if level = 0 then c.endOutermost message outermost
        else if c.connection.supportsSavepoint then
          Run.log .debug (text level)
          c.control (inner level)
        else Run.log .info unsupported) := by
  have hne : w.session.level ≠ 0 := by omega
  refine Meets.of_imp (P := Underway w.session.master w.journal (n + 1) []) ?_ ?_
  · rintro _ rfl
    exact .start hlevel
  -- The level is lowered before anything is sent, and a cancelled call leaves it so.
  refine leaveLevel_underway.bind fun level => .of_fact ?_
  rintro rfl
  cases level with
  | zero => exact endOutermost_turns
  | succ n =>
    refine .ite (fun h => absurd h (Nat.succ_ne_zero n)) fun _ => .ite (fun _ => ?_) fun _ => ?_
    · refine (Meets.log underway_stable _ _).bind fun _ => ?_
      refine ((control_underway _).of_failed fun _ h => .inl h).imp fun _ w' h => ?_
      exact Turned.inner h hne
    · exact (Meets.log underway_stable _ _).imp fun _ w' h => Turned.inner h hne

/-- Outside a transaction the connections are given back. -/
theorem release_turns (hlevel : w.session.level = 0) :
    Turns c begins left w (fun w' => w' = w) (c.release true) := by
  refine Meets.of_imp (P := Underway w.session.master w.journal 0 []) ?_
    (release_underway.imp fun _ w' h => .inl h)
  rintro _ rfl
  exact .start hlevel

theorem isActive_iff {s : Session} : s.isActive = true ↔ s.level ≠ 0 := by
  simp [Session.isActive]

theorem commit_turns (w : RunState σ) :
    Turns c false (w.session.level - 1) w (fun w' => w' = w) c.commit := by
  refine Meets.session_of (.ite (fun hactive => ?_) fun hactive => ?_)
  · obtain ⟨n, hn⟩ := Nat.exists_eq_succ_of_ne_zero (isActive_iff.mp hactive)
    rw [hn]
    exact endLevel_turns (fun level => "RELEASE SAVEPOINT " ++ savepointName level) hn
  · have hlevel : w.session.level = 0 := by simpa [Session.isActive] using hactive
    exact (release_turns hlevel).bind fun _ => .fail fun _ h => h

theorem rollBack_turns (w : RunState σ) :
    Turns c false (w.session.level - 1) w (fun w' => w' = w) c.rollBack := by
  refine Meets.session_of (.ite (fun hactive => ?_) fun hactive => ?_)
  · obtain ⟨n, hn⟩ := Nat.exists_eq_succ_of_ne_zero (isActive_iff.mp hactive)
    rw [hn]
    exact endLevel_turns (fun level => "ROLLBACK TO SAVEPOINT " ++ savepointName level) hn
  · have hlevel : w.session.level = 0 := by simpa [Session.isActive] using hactive
    exact release_turns hlevel

theorem setIsolationLevel_turns (isolation : IsolationLevel) (w : RunState σ) :
    Turns c false w.session.level w (fun w' => w' = w) (c.setIsolationLevel isolation) := by
  refine Meets.session_of (.ite (fun hactive => ?_) fun hactive => ?_)
  · have hne := isActive_iff.mp hactive
    obtain ⟨n, hn⟩ := Nat.exists_eq_succ_of_ne_zero hne
    refine Meets.of_imp (P := Underway w.session.master w.journal (n + 1) []) ?_ ?_
    · rintro w' rfl
      exact .start hn
    rw [hn]
    refine (Meets.log underway_stable _ _).bind fun _ => ?_
    refine Meets.bind (R := fun _ => Underway w.session.master w.journal (n + 1) []) ?_
      fun sql => ?_
    · exact .ofResult (fun _ _ _ h => h) fun _ h => Turned.inner h hne
    · refine ((control_underway sql).of_failed fun _ h => .inl h).imp fun _ w' h => ?_
      exact Turned.inner h hne
  · have hlevel : w.session.level = 0 := by simpa [Session.isActive] using hactive
    exact (release_turns hlevel).bind fun _ => .fail fun _ h => h

end Client

namespace Session

open Run Client

variable {σ α : Type} {c : Client σ} {v : Visit σ}

/-- Whether the call begins, ends or changes a transaction. -/
def Call.isTurn : {α : Type} → Call α → Bool
  | _, .begin _ => true
  | _, .commit => true
  | _, .rollBack => true
  | _, .setIsolationLevel _ => true
  | _, _ => false

/-- Whether the call begins a level. -/
def Call.isBegin : {α : Type} → Call α → Bool
  | _, .begin _ => true
  | _, _ => false

/-- Whether the call ends a level. -/
def Call.isEnd : {α : Type} → Call α → Bool
  | _, .commit => true
  | _, .rollBack => true
  | _, _ => false

/-- The level that a call leaves a session at if it is cancelled. -/
def Call.levelLeft (k : Call α) (level : Nat) : Nat :=
  if k.isEnd then level - 1 else level

/-- What an operation on transactions does to a session. -/
theorem Call.turned {k : Call α} (hk : k.isTurn = true) (w : RunState σ) :
    Turns c k.isBegin (k.levelLeft w.session.level) w (fun w' => w' = w) (k.run c) := by
  cases k with
  | begin isolation => exact begin_turns isolation w
  | commit => exact commit_turns w
  | rollBack => exact rollBack_turns w
  | setIsolationLevel isolation => exact setIsolationLevel_turns isolation w
  | _ => cases hk

/-- Outside transactions a `begin` alone of these operations waits for a server. -/
theorem Call.turned_outside {k : Call α} (hk : k.isTurn = true) (hbegin : k.isBegin = false)
    {w : RunState σ} (hlevel : w.session.level = 0) : (k.run c w).1.isCancelled = false := by
  have hactive : w.session.isActive = false := by simp [Session.isActive, hlevel]
  obtain ⟨w', hrelease⟩ : ∃ w', c.release true w = (.done (), w') := ⟨_, release_eq hlevel rfl⟩
  cases k with
  | begin => cases hbegin
  | commit =>
    simp [Call.run, Client.commit, Bind.bind, Run.bind, Run.session, hactive, hrelease, Run.fail,
      Outcome.isCancelled]
  | rollBack =>
    simp [Call.run, Client.rollBack, Bind.bind, Run.bind, Run.session, hactive, hrelease,
      Outcome.isCancelled]
  | setIsolationLevel isolation =>
    simp [Call.run, Client.setIsolationLevel, Bind.bind, Run.bind, Run.session, hactive, hrelease,
      Run.fail, Outcome.isCancelled]
  | _ => cases hk

/-- An operation on transactions that is not cancelled. -/
theorem Visit.turned (hv : v.call.isTurn = true) (hending : v.ending c ≠ .pending) :
    Turned c v.call.isBegin v.before (v.after c) :=
  Visit.of_returned (Call.turned hv v.before) hending

/-- An operation on transactions that is cancelled. -/
theorem Visit.underway (hv : v.call.isTurn = true) (hending : v.ending c = .pending) :
    Underway v.before.session.master v.before.journal
      (v.call.levelLeft v.before.session.level) [] (v.after c) :=
  Visit.of_cancelled (Call.turned hv v.before) hending

/-! ## Other calls -/

theorem Call.levelLeft_other {k : Call α} (hturn : k.isTurn = false) (level : Nat) :
    k.levelLeft level = level := by
  cases k with
  | commit | rollBack => cases hturn
  | _ => rfl

/-- The calls that do not change the level. -/
theorem Call.permit_turns {conn : Connection} {k : Call α} (hturn : k.isTurn = false)
    (hclose : k.isClose = false) : (k.permit conn).turns = false := by
  cases k with
  | close => cases hclose
  | begin | commit | rollBack | setIsolationLevel => cases hturn
  | _ => rfl

/-- The calls that do not close the connection of a transaction. -/
theorem Call.permit_parts {conn : Connection} {k : Call α} (hturn : k.isTurn = false)
    (hclose : k.isClose = false) (hreconnect : k.isReconnect = false) :
    (k.permit conn).parts = false := by
  cases k with
  | close => cases hclose
  | begin | commit | rollBack | setIsolationLevel => cases hturn
  | reconnect => cases hreconnect
  | _ => rfl

/-- A session that is closed, which takes no waiting, is in no transaction, and nothing was sent. -/
theorem Call.closes {k : Call α} (hk : k.isClose = true) (w : RunState σ) :
    (k.run c w).1.isCancelled = false ∧ (k.run c w).2.session.level = 0 ∧
      (k.run c w).2.session.master = none ∧
      ∃ new, (k.run c w).2.journal = new ++ w.journal ∧
        ∀ l sql values ending, .sent l sql values ending ∉ new := by
  cases k with
  | close =>
    obtain ⟨logs, hlogs, hclose⟩ := close_eq (c := c) w
    change (c.close w).1.isCancelled = false ∧ (c.close w).2.session.level = 0 ∧
      (c.close w).2.session.master = none ∧ ∃ new, (c.close w).2.journal = new ++ w.journal ∧ _
    rw [hclose]
    refine ⟨rfl, rfl, rfl, _, (List.append_assoc _ _ _).symm, fun l sql values ending hmem => ?_⟩
    rcases List.mem_append.mp hmem with hmem | hmem
    · obtain ⟨_, -, he⟩ := List.mem_map.mp hmem
      cases he
    · obtain ⟨level, text, he⟩ := hlogs _ hmem
      cases he
  | _ => cases hk

end Session

end QueryKit
