import QueryKit.Proofs.Command.Answers
import QueryKit.Proofs.Session.Sends

/-!
# Commands that are answered without being sent

- `Client.supplied`: the answer that a read finds when it starts: that of the caller it follows, or
  the rows that its cache keeps.
- `Command.success_sent_iff`: a command that succeeds was sent, unless it is an empty statement that
  is executed or a read that finds an answer. Nothing else counts, and so the kind of the statement
  does not (`Command.insertReturning_served`).
-/

namespace QueryKit

namespace Client

open Run

variable {σ β : Type} (c : Client σ)

/-- The answer that a read finds when it starts. -/
def supplied (cmd : Command) (method : String) (w : RunState σ) : Option Rows :=
  let kept := (c.kept cmd (c.resultKey method (cmd.rawSql c.connection)) w).map .ok
  match c.flightOf cmd method w with
  | none => kept
  | some flight =>
    match (c.backend.await flight w.servers).1 with
    | .landed rows => some rows
    | .abandoned => kept
    | .running => none

variable {c} {cmd cmd' : Command} {method : String} {w w' : RunState σ}

theorem Answered.of_kept {key : String} {rows : List Row}
    {r : Outcome (Rows × Command) × RunState σ} (h : c.Answered cmd key w r)
    (hkept : c.kept cmd key w = some rows) :
    ∃ w', r = (.done (.ok rows, cmd), w') ∧ Quiet w w' := by
  cases h with
  | kept found quiet _ =>
    rw [hkept] at found
    cases found
    exact ⟨_, rfl, quiet⟩
  | fetched missed _ _ | broken missed _ _ =>
    rw [hkept] at missed
    cases missed

theorem Answered.sent {key : String} {rows : List Row} (hkept : c.kept cmd key w = none)
    (h : c.Answered cmd key w (.done (.ok rows, cmd'), w')) :
    cmd.SentSince c.connection w.journal w'.journal := by
  cases h with
  | kept found _ _ =>
    rw [hkept] at found
    cases found
  | fetched _ sent _ => exact sent
  | broken _ failed _ => exact absurd rfl (failed _ _)

/-- A read that finds an answer returns it, with nothing but messages. -/
theorem fetchRows_of_supplied {answer : Rows} (h : c.supplied cmd method w = some answer) :
    ∃ w', c.fetchRows cmd method w = (.done (answer, cmd), w') ∧ Quiet w w' := by
  have hcase : ∀ {r}, c.Answered cmd (c.resultKey method (cmd.rawSql c.connection)) w r →
      (c.kept cmd (c.resultKey method (cmd.rawSql c.connection)) w).map .ok = some answer →
      ∃ w', r = (.done (answer, cmd), w') ∧ Quiet w w' := by
    intro r hr hkept
    obtain ⟨rows, hrows, rfl⟩ := Option.map_eq_some_iff.mp hkept
    exact hr.of_kept hrows
  unfold supplied at h
  cases hflight : c.flightOf cmd method w with
  | none =>
    simp only [hflight] at h
    exact hcase (fetchRows_answered hflight) h
  | some flight =>
    simp only [hflight] at h
    rcases hawait : c.backend.await flight w.servers with ⟨_ | rows | _, servers⟩
    · simp [hawait] at h
    · simp only [hawait, Option.some.injEq] at h
      exact ⟨{ w with servers }, h ▸ fetchRows_landed hflight hawait, .of_eq rfl rfl rfl⟩
    · simp only [hawait] at h
      exact hcase (fetchRows_abandoned hflight hawait) h

/-- A read that finds no answer and succeeds was sent. -/
theorem sent_of_fetchRows {rows : List Row} (h : c.supplied cmd method w = none)
    (hr : c.fetchRows cmd method w = (.done (.ok rows, cmd'), w')) :
    cmd.SentSince c.connection w.journal w'.journal := by
  unfold supplied at h
  cases hflight : c.flightOf cmd method w with
  | none =>
    simp only [hflight, Option.map_eq_none_iff] at h
    exact (hr ▸ fetchRows_answered hflight).sent h
  | some flight =>
    simp only [hflight] at h
    rcases hawait : c.backend.await flight w.servers with ⟨_ | rows | _, servers⟩
    · rw [fetchRows_running hflight hawait] at hr
      cases hr
    · simp [hawait] at h
    · simp only [hawait, Option.map_eq_none_iff] at h
      exact (hr ▸ fetchRows_abandoned hflight hawait).sent h

/-- Rows that callers can make something of. -/
theorem fetchAs_ok {f : List Row → Result β} {b : β}
    (h : c.fetchAs method f cmd w = (.done (.ok b, cmd'), w')) :
    ∃ rows, c.fetchRows cmd method w = (.done (.ok rows, cmd'), w') ∧ f rows = .ok b := by
  change Run.bind (c.fetchRows cmd method) _ w = _ at h
  unfold Run.bind at h
  rcases hr : c.fetchRows cmd method w with ⟨⟨e | rows, cmd₁⟩ | e | _, w₁⟩ <;> rw [hr] at h
  · cases h
  · obtain ⟨hd, rfl⟩ := Prod.mk.inj h
    obtain ⟨hf, rfl⟩ := Prod.mk.inj (Outcome.done.inj hd)
    exact ⟨rows, rfl, hf⟩
  · cases h
  · cases h

theorem supplied_none (hshare : cmd.share = false) (hcache : c.cacheOf cmd = none) :
    c.supplied cmd method w = none := by
  simp [supplied, flightOf, kept, hshare, hcache]

theorem execute_empty (hsql : cmd.sql = "") :
    ∃ w', c.execute cmd w = (.done (.ok 0, cmd), w') ∧ Quiet w w' := by
  obtain ⟨w', hlog, hquiet, -⟩ := logQuery_done (c := c) (cmd.rawSql c.connection) w
  refine ⟨w', ?_, hquiet⟩
  change Run.bind (c.logQuery _) _ w = _
  unfold Run.bind
  rw [hlog]
  dsimp only
  rw [if_pos hsql]
  rfl

end Client

namespace Command

open Run

variable {σ : Type}

/-- A command that succeeds was sent in the course of the call, unless it is an empty statement that
is executed or a read that finds an answer. That answer it returns, and nothing happens to
connections. -/
theorem success_sent_iff (c : Client σ) (cmd : Command) (w : RunState σ) :
    (∀ n cmd' w', c.execute cmd w = (.done (.ok n, cmd'), w') →
      (cmd.SentSince c.connection w.journal w'.journal ↔ cmd.sql ≠ "")) ∧
    (∀ {β : Type} (method : String) (f : List Row → Result β) (b : β) cmd' w',
      c.fetchAs method f cmd w = (.done (.ok b, cmd'), w') →
      (cmd.SentSince c.connection w.journal w'.journal ↔ c.supplied cmd method w = none) ∧
        ∀ answer, c.supplied cmd method w = some answer → answer.bind f = .ok b ∧ Quiet w w') ∧
    (cmd.share = false → c.cacheOf cmd = none → ∀ method, c.supplied cmd method w = none) := by
  refine ⟨fun n cmd' w' h => ?_, fun method f b cmd' w' h => ?_, fun hshare hcache method =>
    Client.supplied_none hshare hcache⟩
  · by_cases hsql : cmd.sql = ""
    · obtain ⟨w₁, hw₁, hquiet⟩ := Client.execute_empty (c := c) (w := w) hsql
      rw [h] at hw₁
      cases hw₁
      exact iff_of_false hquiet.not_sentSince (by simp [hsql])
    · refine iff_of_true ?_ hsql
      exact ((Client.execute_earned cmd hsql).done (Onward.wiring.refl w) h).2 n rfl
  · obtain ⟨rows, hrows, hf⟩ := Client.fetchAs_ok h
    have hfound : ∀ answer, c.supplied cmd method w = some answer →
        answer = .ok rows ∧ Quiet w w' := by
      intro answer hanswer
      obtain ⟨w₁, hw₁, hquiet⟩ := Client.fetchRows_of_supplied hanswer
      rw [hrows] at hw₁
      cases hw₁
      exact ⟨rfl, hquiet⟩
    refine ⟨⟨fun hsent => ?_, fun hnone => Client.sent_of_fetchRows hnone hrows⟩,
      fun answer hanswer => ?_⟩
    · refine Option.eq_none_iff_forall_ne_some.mpr fun answer hanswer => ?_
      exact (hfound answer hanswer).2.not_sentSince hsent
    · obtain ⟨rfl, hquiet⟩ := hfound answer hanswer
      exact ⟨hf, hquiet⟩

open Client (rehearsal rehearsalState)

/-- The client of a rehearsal, with a query cache. -/
def cachingRehearsal : Client Recorder :=
  { rehearsal with connection := { rehearsal.connection with cacheCapacity := some 8 } }

/-- An insert that returns the new row, read with a cache. -/
def insertReturning : Command :=
  { empty with
    sql := "INSERT INTO t (a) VALUES (1) RETURNING id"
    cache := some ⟨none, none⟩ }

/-- The state in which the insert has run once. -/
def insertedState : RunState Recorder :=
  (cachingRehearsal.queryAll insertReturning (.ofConnection cachingRehearsal.connection
    rehearsalState.servers)).2

theorem insertedState_caches : insertedState.caches =
    [⟨8, [⟨cachingRehearsal.resultKey "fetchAll" insertReturning.sql, storedRows [], none,
      1⟩]⟩] :=
  rfl

theorem insertedState_supplied :
    cachingRehearsal.supplied insertReturning "fetchAll" insertedState = some (.ok []) := by
  have hcache : cachingRehearsal.cacheOf insertReturning = some (0, none) := rfl
  have hraw : insertReturning.rawSql cachingRehearsal.connection = insertReturning.sql := rfl
  have hread : readRows (storedRows []) = .ok [] := rfl
  have hflight : cachingRehearsal.flightOf insertReturning "fetchAll" insertedState = none := rfl
  simp [Client.supplied, Client.kept, hcache, hraw, hflight, insertedState_caches, MemoryCache.get,
    MemoryCache.find?, CacheEntry.isExpired, hread, Except.toOption]

/-- The second insert succeeds, and is not sent. -/
theorem insertReturning_served : isReadStatement insertReturning.sql = false ∧
    ∃ w', cachingRehearsal.queryAll insertReturning insertedState =
        (.done (.ok [], insertReturning), w') ∧
      ¬ insertReturning.SentSince cachingRehearsal.connection insertedState.journal w'.journal := by
  obtain ⟨w₁, hrows, -⟩ := Client.fetchRows_of_supplied insertedState_supplied
  have hdone : cachingRehearsal.queryAll insertReturning insertedState =
      (.done (.ok [], insertReturning), w₁) := by
    change Run.bind (cachingRehearsal.fetchRows insertReturning "fetchAll") _ insertedState = _
    unfold Run.bind
    rw [hrows]
    rfl
  have hiff := ((success_sent_iff cachingRehearsal insertReturning insertedState).2.1 "fetchAll" .ok
    [] insertReturning w₁ hdone).1
  refine ⟨by decide, w₁, hdone, fun hsent => ?_⟩
  have hnone := hiff.mp hsent
  rw [insertedState_supplied] at hnone
  cases hnone

end Command

end QueryKit
