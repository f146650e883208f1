import QueryKit.Proofs.Closures.Levels

/-!
# Steps that leave levels open

A step inside a level of its own may begin further levels and not end them. Then the level is not the
innermost one when the step has ended.

- `Client.transaction_closes_iff`: of the steps whose level is still open at their end, those are
  followed by the end of the level that leave no other level open. What the others leave behind stays
  as it is.
- `Client.transaction_unclosed_lost`: when the session ends then, its connection is closed without a
  `COMMIT`, even if the step has returned a result.
-/

namespace QueryKit.Client

open Run Journal

variable {σ α : Type} {c : Client σ} {w w₁ w₂ : RunState σ} {isolation : Option IsolationLevel}
  {x : Run σ α} {r : Result α}

/-- A level inside which others are open is left as it is. -/
theorem transaction_unclosed (hbegin : c.begin isolation w = (.done (), w₁))
    (hx : x w₁ = (.ofResult r, w₂)) (hlevel : w₂.session.level ≠ w₁.session.level) :
    c.transaction isolation x w = (.ofResult r, w₂) := by
  rw [transaction_ended hbegin hx, finish_away r (.inr hlevel)]

/-- A level that is the innermost one is closed, unless a statement fails. -/
theorem transaction_closed (hbegin : c.begin isolation w = (.done (), w₁))
    (hx : x w₁ = (.ofResult r, w₂)) (hlevel : w₂.session.level = w₁.session.level)
    (hmaster : w₂.session.master ≠ none)
    (hreturned : (c.transaction isolation x w).1.isCancelled = false)
    (hran : (w₂.events (c.transaction isolation x w).2).any Event.isFailure = false) :
    (c.transaction isolation x w).1 = .ofResult r ∧
      Came w₂ w.session.level [closing w.session.level r.isOk] (c.transaction isolation x w).2 := by
  obtain ⟨hopened, -, hsavepoint⟩ := (begin_came isolation).done rfl hbegin
  rw [transaction_ended hbegin hx, hopened.level] at hreturned hran ⊢
  rcases finish_came (hlevel.trans hopened.level) hmaster hsavepoint r hreturned with
    ⟨hout, hclosed, -⟩ | ⟨hstopped, -⟩
  · exact ⟨hout, hclosed⟩
  · have hsevered := hstopped.severed.resolve_right fun h => hmaster h.1
    cases hran.symm.trans hsevered.any_failure

/-- A step has ended while its level is still open, and no statement fails afterwards. What it has
ended in is passed on. The statement that ends the level is sent, and the level is again what it was
before the call, if and only if the step has left no further levels open; if it has, then nothing
happens after it. -/
theorem transaction_closes_iff (hbegin : c.begin isolation w = (.done (), w₁))
    (hx : x w₁ = (.ofResult r, w₂)) (hopen : w₁.session.level ≤ w₂.session.level)
    (hmaster : w₂.session.master ≠ none)
    (hreturned : (c.transaction isolation x w).1.isCancelled = false)
    (hran : (w₂.events (c.transaction isolation x w).2).any Event.isFailure = false) :
    let w' := (c.transaction isolation x w).2
    (c.transaction isolation x w).1 = .ofResult r ∧
      ((closing w.session.level r.isOk ∈ Journal.texts (w₂.events w') ∧
          w'.session.level = w.session.level) ↔ w₂.session.level = w₁.session.level) ∧
      (w₁.session.level < w₂.session.level → w' = w₂) := by
  intro w'
  by_cases hlevel : w₂.session.level = w₁.session.level
  · obtain ⟨hout, hclosed⟩ := transaction_closed hbegin hx hlevel hmaster hreturned hran
    refine ⟨hout, iff_of_true ⟨?_, hclosed.level⟩ hlevel, fun hlt => ?_⟩
    · rw [hclosed.texts]
      exact List.mem_singleton_self _
    · exact absurd hlevel (Nat.ne_of_gt hlt)
  · have hsame := transaction_unclosed hbegin hx hlevel
    have hw' : w' = w₂ := congrArg Prod.snd hsame
    refine ⟨congrArg Prod.fst hsame, iff_of_false (fun h => ?_) hlevel, fun _ => hw'⟩
    -- The level is still above the one that began with the call.
    obtain ⟨hopened, -⟩ := (begin_came isolation).done rfl hbegin
    have hback := h.2
    rw [hw'] at hback
    have hbegun := hopened.level
    omega

/-- A step that begins a level and leaves it open is not followed by `COMMIT`. -/
theorem transaction_begin_unclosed :
    let w' := (rehearsal.transaction none (rehearsal.begin none) rehearsalState).2
    (rehearsal.transaction none (rehearsal.begin none) rehearsalState).1 = .done () ∧
      w'.session.level = 2 ∧
      Journal.texts (rehearsalState.events w') = ["BEGIN", "SAVEPOINT LEVEL1"] := by
  obtain ⟨hout, -, hsame⟩ := @transaction_closes_iff Recorder Unit rehearsal rehearsalState _ _ none
    (rehearsal.begin none) (.ok ()) rfl rfl (by decide) (Option.some_ne_none _) rfl rfl
  refine ⟨hout, ?_⟩
  rw [hsame (by decide)]
  exact ⟨rfl, rfl⟩

/-- The connection of levels that were left open is closed when the session ends. -/
theorem transaction_unclosed_lost {link : Link} (hbegin : c.begin isolation w = (.done (), w₁))
    (hx : x w₁ = (.ofResult r, w₂)) (hlevel : w₁.session.level < w₂.session.level)
    (hmaster : w₂.session.master = some link) :
    .discarded link ∈ Session.dropEvents c (c.transaction isolation x w).2 := by
  rw [transaction_unclosed hbegin hx (Nat.ne_of_gt hlevel)]
  exact (Session.mem_dropEvents (by simp [Session.held, hmaster])).2.mpr (Nat.ne_zero_of_lt hlevel)

end QueryKit.Client
