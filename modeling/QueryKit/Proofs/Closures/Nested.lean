import QueryKit.Proofs.Closures.Levels

/-!
# Closures in transactions

- `Session.Closure`: what callers do with a session who leave transactions to
  `Client.transaction`: statements, with any decisions between them, failures that are passed on or
  handled, and such calls in each other.
- `Session.Course`: the statements of a run as a tree. A call that begins a level is a bracket around
  the course of its closure; `Course.texts` writes out what brackets begin and end with.
- `Session.Bracketed`: from one state to another brackets were opened and closed, or a connection was
  closed because such a statement failed. Every closure keeps to this (`Closure.bracketed`).
- `Closure.transaction_brackets`: what a call of `Client.transaction` sends, the level it leaves and
  the failure it passes on.
-/

namespace QueryKit

/-- Whether a step has ended in a result. -/
def Outcome.isDone {α : Type} : Outcome α → Bool
  | done _ => true
  | _ => false

namespace Session

/-- Whether the call is a statement, or asks for the columns of a table. -/
def Call.isStatement : {α : Type} → Call α → Bool
  | _, .execute _ => true
  | _, .fetch _ _ _ => true
  | _, .tableSchema _ => true
  | _, _ => false

/-- What callers do with a session who begin and end levels by closures only. -/
inductive Closure (σ : Type) : Type → Type 1
  | done {α : Type} (a : α) : Closure σ α
  | fail {α : Type} (e : Error) : Closure σ α
  /-- Look at everything there is. -/
  | state : Closure σ (RunState σ)
  | statement {α : Type} (k : Call α) (h : k.isStatement = true) : Closure σ α
  | bind {α β : Type} (p : Closure σ α) (f : α → Closure σ β) : Closure σ β
  /-- Go on whether or not a closure fails. -/
  | attempt {α : Type} (p : Closure σ α) : Closure σ (Result α)
  /-- A closure inside a level of its own. -/
  | transaction {α : Type} (isolation : Option IsolationLevel) (p : Closure σ α) : Closure σ α

/-- What was sent in a run, in its order. -/
inductive Course where
  | nothing
  | statements (texts : List String)
  | both (first second : Course)
  /-- A level that has begun: whether its call has returned a result, and what happened inside. -/
  | bracket (isolation : Option IsolationLevel) (returned : Bool) (inside : Course)

open Run Client

variable {σ α : Type} {c : Client σ} {d : Dialect} {w w' w'' : RunState σ}
  {sent inside : List String}

namespace Course

/-- The statements of a run that starts at a level. -/
def texts (d : Dialect) : Nat → Course → List String
  | _, nothing => []
  | _, statements texts => texts
  | level, both first second => first.texts d level ++ second.texts d level
  | level, bracket isolation returned inside =>
    opening d isolation level ++ inside.texts d (level + 1) ++ [closing level returned]

end Course

namespace Closure

def run (c : Client σ) : {α : Type} → Closure σ α → Run σ α
  | _, .done a => Run.pure a
  | _, .fail e => Run.fail e
  | _, .state => Run.state
  | _, .statement k _ => k.run c
  | _, .bind p f => run c p >>= fun a => run c (f a)
  | _, .attempt p => (run c p).attempt
  | _, .transaction isolation p => c.transaction isolation (run c p)

/-- What a run sends: a level that begins is a bracket, by the way in which its call ends. -/
def course (c : Client σ) : {α : Type} → Closure σ α → RunState σ → Course
  | _, .statement k _, w => .statements (Journal.texts (w.events (k.run c w).2))
  | _, .bind p f, w =>
    .both (course c p w)
      (match run c p w with
        | (.done a, w') => course c (f a) w'
        | _ => .nothing)
  | _, .attempt p, w => course c p w
  | _, .transaction isolation p, w =>
    match c.begin isolation w with
    | (.done _, w') =>
      .bracket isolation (c.transaction isolation (run c p) w).1.isDone (course c p w')
    | _ => .nothing
  | _, _, _ => .nothing

variable {p : Closure σ α} {isolation : Option IsolationLevel} {e : Error}

theorem course_bind_done {β : Type} {f : α → Closure σ β} {a : α}
    (h : p.run c w = (.done a, w')) :
    (bind p f).course c w = .both (p.course c w) ((f a).course c w') := by
  rw [course, h]

theorem course_bind_failed {β : Type} {f : α → Closure σ β} (h : p.run c w = (.failed e, w')) :
    (bind p f).course c w = .both (p.course c w) .nothing := by
  rw [course, h]

theorem course_transaction_done (h : c.begin isolation w = (.done (), w')) :
    (transaction isolation p).course c w =
      .bracket isolation (c.transaction isolation (p.run c) w).1.isDone (p.course c w') := by
  rw [course, h]

theorem course_transaction_failed (h : c.begin isolation w = (.failed e, w')) :
    (transaction isolation p).course c w = .nothing := by
  rw [course, h]

end Closure

/-- From one state to another the statements were sent, and the levels that have begun have ended. Or
a statement that begins or ends a level has failed; then its connection was closed, and the session
may be without a transaction. -/
structure Bracketed (d : Dialect) (sent : List String) (w w' : RunState σ) : Prop where
  grows : w.journal <:+ w'.journal
  level : w'.session.level = w.session.level ∨
    (w'.session.level = 0 ∧ Journal.Severed d (w.events w'))
  holds : Holds w'
  texts : ¬ Journal.Severed d (w.events w') → Journal.texts (w.events w') = sent

namespace Bracketed

theorem of_came (h : Came w w.session.level sent w') (hholds : Holds w') : Bracketed d sent w w' :=
  ⟨h.grows, .inl h.level, hholds, fun _ => h.texts⟩

theorem refl (h : Holds w) : Bracketed d [] w w :=
  .of_came .refl h

/-- What is sent at the end is known by the level at first: that is the level still, unless a
connection was closed. -/
theorem append (more : Nat → List String) (h : Bracketed d sent w w')
    (h' : Bracketed d (more w'.session.level) w' w'') :
    Bracketed d (sent ++ more w.session.level) w w'' := by
  have hevents := RunState.events_append h.grows h'.grows
  refine ⟨h.grows.trans h'.grows, ?_, h'.holds, fun hsevered => ?_⟩
  · rw [hevents]
    rcases h'.level with hlevel' | ⟨hzero, hsevered⟩
    · rw [hlevel']
      exact h.level.imp id fun hlevel => ⟨hlevel.1, hlevel.2.append_right⟩
    · exact .inr ⟨hzero, hsevered.append_left⟩
  · rw [hevents] at hsevered ⊢
    have hfirst : ¬ Journal.Severed d (w.events w') := fun hs => hsevered hs.append_right
    have hlevel : w'.session.level = w.session.level :=
      h.level.resolve_right fun hlevel => hfirst hlevel.2
    rw [Journal.texts_append, h.texts hfirst, h'.texts fun hs => hsevered hs.append_left, hlevel]

/-- The session is without a transaction, and a connection was closed on the way. -/
theorem of_severed (hgrows : w.journal <:+ w'.journal) (hlevel : w'.session.level = 0)
    (hsevered : Journal.Severed d (w.events w')) : Bracketed d sent w w' :=
  ⟨hgrows, .inr ⟨hlevel, hsevered⟩, fun hne => absurd hlevel hne, fun hs => absurd hsevered hs⟩

end Bracketed

/-! ## Statements -/

theorem Call.permit_statement {k : Call α} (conn : Connection) (h : k.isStatement = true) :
    (k.permit conn).turns = false ∧ (k.permit conn).parts = false := by
  cases k with
  | execute | fetch | tableSchema => exact ⟨rfl, rfl⟩
  | _ => cases h

/-- A statement leaves the level and the connection of a transaction alone. -/
theorem Call.bracketed {k : Call α} (h : k.isStatement = true) (hholds : Holds w) :
    Bracketed d (Journal.texts (w.events (k.run c w).2)) w (k.run c w).2 := by
  obtain ⟨hturns, hparts⟩ := k.permit_statement c.connection h
  have hreach := k.walks (c := c) w
  have hlevel := Reach.level hreach hturns
  obtain ⟨new, hj, -⟩ := hreach.sends (P := fun _ _ => True) fun _ _ _ _ _ _ => trivial
  refine .of_came ⟨hlevel, ⟨new, hj.symm⟩, rfl⟩ fun hne hnone => ?_
  rw [hlevel] at hne
  obtain ⟨link, hmaster⟩ := Option.ne_none_iff_exists'.mp (hholds hne)
  cases (Reach.master hreach hturns hparts hne hmaster).symm.trans hnone

/-! ## Levels -/

section Transaction

variable {isolation : Option IsolationLevel} {x : Run σ α} {w₁ w₂ : RunState σ} {e : Error}

theorem begin_done (hbegin : c.begin isolation w = (.done (), w₁)) :
    Came w (w.session.level + 1) (opening c.connection.dialect isolation w.session.level) w₁ ∧
      w₁.session.master ≠ none ∧
      (w.session.level ≠ 0 → c.connection.supportsSavepoint = true) :=
  (begin_came isolation).done rfl hbegin

/-- A level does not begin: nothing was sent, or a connection was closed. -/
theorem begin_failed (hbegin : c.begin isolation w = (.failed e, w₁)) :
    let severed := Journal.Severed c.connection.dialect (w.events w₁)
    w.journal <:+ w₁.journal ∧
      (w₁.session.level = w.session.level ∨
        (w₁.session.level = 0 ∧ (severed ∨ w.session.master = none))) ∧
      (Holds w → Holds w₁) ∧ (¬ severed → Journal.texts (w.events w₁) = []) := by
  have hcame := begin_came (c := c) isolation w rfl
  rw [hbegin] at hcame
  rcases hcame with hstopped | hquiet
  · exact ⟨hstopped.grows, .inr ⟨hstopped.level, hstopped.severed.imp_right And.left⟩,
      fun _ hne => absurd hstopped.level hne, fun h => (hstopped.severed.resolve_left h).2⟩
  · have hcame := Came.refl.of_quiet hquiet
    refine ⟨hcame.grows, .inl hcame.level, fun h => ?_, fun _ => hcame.texts⟩
    unfold Holds
    rwa [hquiet.session]

/-- A level is a bracket around what happens inside, closed by the way in which its call ends. The
failure of the step inside is passed on. -/
theorem transaction_bracketed {r : Result α} (hbegin : c.begin isolation w = (.done (), w₁))
    (hx : x w₁ = (.ofResult r, w₂)) (hinside : Bracketed c.connection.dialect inside w₁ w₂)
    (hreturned : (c.transaction isolation x w).1.isCancelled = false) :
    Bracketed c.connection.dialect
        (opening c.connection.dialect isolation w.session.level ++ inside ++
          [closing w.session.level (c.transaction isolation x w).1.isDone])
        w (c.transaction isolation x w).2 ∧
      ∀ e, r = .error e → (c.transaction isolation x w).1 = .failed e := by
  obtain ⟨hopened, -, hsavepoint⟩ := begin_done hbegin
  rw [transaction_ended hbegin hx] at hreturned ⊢
  rw [hopened.level] at hreturned ⊢
  have hgrows := hopened.grows.trans hinside.grows
  have hinner := RunState.events_append hopened.grows hinside.grows
  by_cases hlevel : w₂.session.level = w.session.level + 1
  · have hmaster := hinside.holds (by omega)
    rcases finish_came hlevel hmaster hsavepoint r hreturned with
      ⟨hout, hclosed, hholds⟩ | ⟨hstopped, e, hout, he⟩
    · refine ⟨⟨hgrows.trans hclosed.grows, .inl hclosed.level, hholds, fun hsevered => ?_⟩, ?_⟩
      · rw [RunState.events_append hgrows hclosed.grows, hinner] at hsevered ⊢
        have hsevered₁ : ¬ Journal.Severed c.connection.dialect (w₁.events w₂) :=
          fun hs => hsevered hs.append_left.append_right
        rw [Journal.texts_append, Journal.texts_append, hopened.texts, hinside.texts hsevered₁,
          hclosed.texts, hout]
        cases r <;> rfl
      · rintro e rfl
        exact hout
    · refine ⟨.of_severed (hgrows.trans hstopped.grows) hstopped.level ?_, ?_⟩
      · rw [RunState.events_append hgrows hstopped.grows]
        exact (hstopped.severed.resolve_right fun hs => hmaster hs.1).append_left
      · rintro e' rfl
        rw [hout, he e' rfl]
  · -- The level has gone, and so has the connection: there is nothing to close.
    rw [finish_away r (.inr hlevel)]
    obtain ⟨hzero, hsevered⟩ :=
      hinside.level.resolve_left fun h => hlevel (h.trans hopened.level)
    refine ⟨.of_severed hgrows hzero (hinner ▸ hsevered.append_left), ?_⟩
    rintro e rfl
    rfl

/-- A level that does not begin, in a session that holds the connection of its transaction. -/
theorem transaction_refused_bracketed (hbegin : c.begin isolation w = (.failed e, w₁))
    (hholds : Holds w) :
    Bracketed c.connection.dialect [] w (c.transaction isolation x w).2 := by
  rw [transaction_refused hbegin]
  obtain ⟨hgrows, hlevel, hkept, htexts⟩ := begin_failed hbegin
  refine ⟨hgrows, ?_, hkept hholds, htexts⟩
  by_cases hzero : w.session.level = 0
  · exact .inl (hlevel.elim id fun h => h.1.trans hzero.symm)
  · exact hlevel.imp_right fun h => ⟨h.1, h.2.resolve_right (hholds hzero)⟩

end Transaction

/-- A run keeps to brackets, whatever the servers do. -/
theorem Closure.bracketed (p : Closure σ α) (hholds : Holds w)
    (hreturned : (p.run c w).1.isCancelled = false) :
    Bracketed c.connection.dialect ((p.course c w).texts c.connection.dialect w.session.level) w
      (p.run c w).2 := by
  induction p generalizing w with
  | done | fail | state => exact .refl hholds
  | statement k hk => exact Call.bracketed hk hholds
  | attempt p ih =>
    have hp := ih hholds
    change (Run.attempt (p.run c) w).1.isCancelled = false at hreturned
    change Bracketed _ _ w (Run.attempt (p.run c) w).2
    unfold Run.attempt at hreturned ⊢
    rcases hr : p.run c w with ⟨a | e | _, w'⟩ <;> rw [hr] at hp hreturned
    · exact hp rfl
    · exact hp rfl
    · cases hreturned
  | bind p f ih ihf =>
    have hp := ih hholds
    change (Run.bind (p.run c) (fun a => (f a).run c) w).1.isCancelled = false at hreturned
    change Bracketed _ _ w (Run.bind (p.run c) (fun a => (f a).run c) w).2
    unfold Run.bind at hreturned ⊢
    rcases hr : p.run c w with ⟨a | e | _, w'⟩ <;> rw [hr] at hp hreturned
    · rw [course_bind_done hr]
      exact (hp rfl).append (fun level => ((f a).course c w').texts _ level)
        (ihf a (hp rfl).holds hreturned)
    · rw [course_bind_failed hr]
      exact (hp rfl).append (fun level => Course.nothing.texts _ level)
        (.refl (hp rfl).holds)
    · cases hreturned
  | transaction isolation p ih =>
    change (c.transaction isolation (p.run c) w).1.isCancelled = false at hreturned
    change Bracketed _ _ w (c.transaction isolation (p.run c) w).2
    rcases transaction_cases hreturned with ⟨e, w₁, hbegin⟩ | ⟨w₁, r, w₂, hbegin, hx⟩
    · rw [course_transaction_failed hbegin]
      exact transaction_refused_bracketed hbegin hholds
    · obtain ⟨hopened, hmaster, -⟩ := begin_done hbegin
      have hinside := ih (w := w₁) (fun _ => hmaster)
      rw [hx, hopened.level] at hinside
      rw [course_transaction_done hbegin]
      exact (transaction_bracketed hbegin hx (hinside (by cases r <;> rfl)) hreturned).1

/-- What a call that returns leaves behind, in every state and whatever the servers do.

The level is what it was, or 0 if a statement that begins or ends a level failed and its connection
was closed. (A session that is in a transaction without holding a connection may also find none; then
nothing is sent.) Unless such a statement failed, the levels that have begun are properly nested, and
each has ended with its own statement, by the way in which its call has returned. A failure of the
closure is what the call fails with. -/
theorem Closure.transaction_brackets (c : Client σ) (isolation : Option IsolationLevel)
    (p : Closure σ α) (w : RunState σ) :
    let call := Closure.transaction isolation p
    let w' := (call.run c w).2
    let severed := Journal.Severed c.connection.dialect (w.events w')
    (call.run c w).1.isCancelled = false →
      (w'.session.level = w.session.level ∨ (w'.session.level = 0 ∧ (severed ∨
        (w.session.level ≠ 0 ∧ w.session.master = none ∧ Journal.texts (w.events w') = [])))) ∧
      (¬ severed → Journal.texts (w.events w') =
        (call.course c w).texts c.connection.dialect w.session.level) ∧
      ∀ w₁ w₂ e, c.begin isolation w = (.done (), w₁) → p.run c w₁ = (.failed e, w₂) →
        (call.run c w).1 = .failed e := by
  intro call w' severed hreturned
  change (c.transaction isolation (p.run c) w).1.isCancelled = false at hreturned
  rcases transaction_cases hreturned with ⟨e, w₁, hbegin⟩ | ⟨w₁, r, w₂, hbegin, hx⟩
  · obtain ⟨-, hlevel, -, htexts⟩ := begin_failed hbegin
    have hw' : w₁ = w' := (congrArg Prod.snd (transaction_refused hbegin)).symm
    rw [hw'] at hlevel htexts
    rw [course_transaction_failed hbegin]
    refine ⟨?_, htexts, fun _ _ _ hbegin' => nomatch hbegin.symm.trans hbegin'⟩
    by_cases hsevered : severed
    · exact hlevel.imp_right fun h => ⟨h.1, .inl hsevered⟩
    · by_cases hzero : w.session.level = 0
      · exact .inl (hlevel.elim id fun h => h.1.trans hzero.symm)
      · exact hlevel.imp_right fun h =>
          ⟨h.1, .inr ⟨hzero, h.2.resolve_left hsevered, htexts hsevered⟩⟩
  · obtain ⟨hopened, hmaster, -⟩ := begin_done hbegin
    have hinside := p.bracketed (c := c) (w := w₁) (fun _ => hmaster)
    rw [hx, hopened.level] at hinside
    obtain ⟨hbracket, hfailed⟩ :=
      transaction_bracketed hbegin hx (hinside (by cases r <;> rfl)) hreturned
    refine ⟨hbracket.level.imp_right fun h => ⟨h.1, .inl h.2⟩, ?_, ?_⟩
    · rw [course_transaction_done hbegin]
      exact hbracket.texts
    · intro w₁' w₂' e hbegin' hx'
      cases hbegin.symm.trans hbegin'
      have heq := hx.symm.trans hx'
      cases r with
      | ok a => cases heq
      | error e' =>
        cases heq
        exact hfailed _ rfl

/-- A closure that handles the failure of another one inside it. -/
def handledClosure : Closure Recorder Unit :=
  .bind (.attempt (.transaction (α := Unit) none (.fail (.invalidCall .commitInactive)))) fun _ =>
    .done ()

/-- The inner level is rolled back, and the outer one is committed. -/
theorem handledClosure_brackets :
    let w' := ((Closure.transaction none handledClosure).run rehearsal rehearsalState).2
    w'.session.level = 0 ∧ Journal.texts (rehearsalState.events w') =
      ["BEGIN", "SAVEPOINT LEVEL1", "ROLLBACK TO SAVEPOINT LEVEL1", "COMMIT"] := by
  obtain ⟨hlevel, htexts, -⟩ :=
    Closure.transaction_brackets rehearsal none handledClosure rehearsalState rfl
  refine ⟨hlevel.elim id And.left, htexts fun hsevered => ?_⟩
  cases hsevered.any_failure

end Session

end QueryKit
