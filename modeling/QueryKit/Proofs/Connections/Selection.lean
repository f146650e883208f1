import QueryKit.Proofs.Key.Lookup
import QueryKit.Proofs.Session.Sends

/-!
# Choosing a server

- `RunState.isDead`: a server is skipped at this time. `NoneExpire`: no mark runs out meanwhile.
- `Client.Search`: how a connection is looked for, one server after the other. `openFirst` does so
  as long as each server is either up or down (`Client.openFirst_search`).
- `Client.Selected`: whose connection is found, which servers are asked for one and which are skipped
  from then on, all in terms of the servers that are up and not skipped. This is what a search comes
  to, in whatever order it goes (`Client.Search.selected`, `Client.selects_server`).
-/

namespace QueryKit

variable {σ : Type}

/-! ## Marks -/

namespace RunState

variable {w w₁ w' : RunState σ} {dsn d : String} {mark : Option Nat}

/-- Whether a server is skipped at this time. -/
def isDead (w : RunState σ) (dsn : String) : Bool :=
  match w.dead.lookup dsn with
  | some until_ => w.clock < until_
  | none => false

/-- The servers that are not skipped. -/
def live (w : RunState σ) (pools : List Pool) : List Pool :=
  pools.filter fun p => !w.isDead p.dsn

/-- No mark runs out from one state to the other, neither one that was in force nor one made since. -/
structure NoneExpire (w w' : RunState σ) : Prop where
  old : ∀ dsn until_, w.dead.lookup dsn = some until_ → w.clock < until_ → w'.clock < until_
  new : ∀ dsn until_, w'.dead.lookup dsn = some until_ → w.dead.lookup dsn ≠ some until_ →
    w'.clock < until_

/-- From one state to the other time may pass, and the mark of one server becomes `mark`. -/
structure Marked (dsn : String) (mark : Option Nat) (w w' : RunState σ) : Prop where
  clock : w.clock ≤ w'.clock
  here : w'.dead.lookup dsn = mark
  others : ∀ d, d ≠ dsn → w'.dead.lookup d = w.dead.lookup d

theorem isDead_eq_true : w.isDead dsn = true ↔ ∃ u, w.dead.lookup dsn = some u ∧ w.clock < u := by
  unfold isDead
  cases w.dead.lookup dsn <;> simp

theorem isDead_eq_false :
    w.isDead dsn = false ↔ ∀ u, w.dead.lookup dsn = some u → u ≤ w.clock := by
  unfold isDead
  cases w.dead.lookup dsn <;> simp

@[simp] theorem live_nil : w.live [] = [] := rfl

theorem live_cons_dead {p : Pool} {pools : List Pool} (h : w.isDead p.dsn = true) :
    w.live (p :: pools) = w.live pools := by
  simp [live, h]

theorem live_cons_alive {p : Pool} {pools : List Pool} (h : w.isDead p.dsn = false) :
    w.live (p :: pools) = p :: w.live pools := by
  simp [live, h]

theorem mem_live {p : Pool} {pools : List Pool} :
    p ∈ w.live pools ↔ p ∈ pools ∧ w.isDead p.dsn = false := by
  simp [live]

theorem Marked.trans {mark' : Option Nat} (h : Marked dsn mark w w₁)
    (h' : Marked dsn mark' w₁ w') : Marked dsn mark' w w' where
  clock := Nat.le_trans h.clock h'.clock
  here := h'.here
  others d hd := (h'.others d hd).trans (h.others d hd)

/-- A state between the two, after which the mark that was changed stays as it is. -/
theorem NoneExpire.after (h : NoneExpire w w') (hm : Marked dsn mark w w₁)
    (hlater : w'.dead.lookup dsn = mark) : NoneExpire w₁ w' where
  old d u hd hu := by
    by_cases hdsn : d = dsn
    · subst hdsn
      have hlast : w'.dead.lookup d = some u := by rw [hlater, ← hm.here, hd]
      by_cases hfirst : w.dead.lookup d = some u
      · exact h.old d u hfirst (Nat.lt_of_le_of_lt hm.clock hu)
      · exact h.new d u hlast hfirst
    · rw [hm.others d hdsn] at hd
      exact h.old d u hd (Nat.lt_of_le_of_lt hm.clock hu)
  new d u hd hne := by
    have hdsn : d ≠ dsn := by
      rintro rfl
      exact hne (hm.here.trans (hlater.symm.trans hd))
    rw [hm.others d hdsn] at hne
    exact h.new d u hd hne

/-- Skipped is what was skipped if its mark is the same. -/
theorem NoneExpire.isDead_eq (h : NoneExpire w w') (hclock : w.clock ≤ w₁.clock)
    (hlast : w₁.clock ≤ w'.clock) (hsame : w₁.dead.lookup d = w.dead.lookup d) :
    w₁.isDead d = w.isDead d := by
  cases hd : w.isDead d with
  | true =>
    obtain ⟨u, hu, hlt⟩ := isDead_eq_true.mp hd
    exact isDead_eq_true.mpr
      ⟨u, hsame.trans hu, Nat.lt_of_le_of_lt hlast (h.old d u hu hlt)⟩
  | false =>
    refine isDead_eq_false.mpr fun u hu => ?_
    exact Nat.le_trans (isDead_eq_false.mp hd u (hsame.symm.trans hu)) hclock

theorem NoneExpire.of_forall (h : ∀ m ∈ w.dead ++ w'.dead, w'.clock < m.2) : NoneExpire w w' where
  old d u hd _ := by
    obtain ⟨l, l', hl, -⟩ := List.lookup_eq_some_iff.mp hd
    exact h (d, u) (by simp [hl])
  new d u hd _ := by
    obtain ⟨l, l', hl, -⟩ := List.lookup_eq_some_iff.mp hd
    exact h (d, u) (by simp [hl])

theorem NoneExpire.live_eq (h : NoneExpire w w') (hm : Marked dsn mark w w₁)
    (hlast : w₁.clock ≤ w'.clock) {pools : List Pool} (hpools : dsn ∉ pools.map Pool.dsn) :
    w₁.live pools = w.live pools := by
  refine List.filter_congr fun p hp => ?_
  have hne : p.dsn ≠ dsn := fun heq => hpools (heq ▸ List.mem_map_of_mem hp)
  rw [h.isDead_eq hm.clock hlast (hm.others _ hne)]

end RunState

open RunState

/-! ## Servers that stay up or down -/

namespace Backend

/-- The servers' state after some were asked for connections, and in which order to ask. -/
inductive Asked (b : Backend σ) (s : σ) : σ → Prop
  | rest : Asked b s s
  | acquire {s' : σ} (pool : Pool) : Asked b s s' → Asked b s (b.acquire pool s').2
  | arrange {s' : σ} (pools : List Pool) : Asked b s s' → Asked b s (b.arrange pools s').2

theorem Asked.trans {b : Backend σ} {s s' s'' : σ} (h : b.Asked s s') (h' : b.Asked s' s'') :
    b.Asked s s'' := by
  induction h' with
  | rest => exact h
  | acquire pool _ ih => exact ih.acquire pool
  | arrange pools _ ih => exact ih.arrange pools

/-- Of some servers those of `up` give connections and the others do not, however many were asked
before. -/
def Steady (b : Backend σ) (up : Pool → Bool) (pools : List Pool) (s : σ) : Prop :=
  ∀ s', b.Asked s s' → ∀ p ∈ pools,
    if up p then (b.acquire p s').1 = .done () else ∃ e, (b.acquire p s').1 = .failed e

/-- The servers' state after these, in their order, were asked for a connection. -/
def askAll (b : Backend σ) (pools : List Pool) (s : σ) : σ :=
  pools.foldl (fun s p => (b.acquire p s).2) s

variable {b : Backend σ} {up : Pool → Bool} {pools : List Pool} {s s' : σ}

theorem Steady.later (h : b.Steady up pools s) (hs : b.Asked s s') : b.Steady up pools s' :=
  fun _ hs' p hp => h _ (hs.trans hs') p hp

theorem Steady.subset {pools' : List Pool} (h : b.Steady up pools s) (hsub : pools' ⊆ pools) :
    b.Steady up pools' s :=
  fun s' hs p hp => h s' hs p (hsub hp)

end Backend

namespace Client

variable {c : Client σ} {up : Pool → Bool} {pools : List Pool} {w w' : RunState σ}
  {found : Option Link}

/-! ## One server after the other -/

theorem isServerDead_eq (dsn : String) (w : RunState σ) :
    ∃ w', isServerDead dsn w = (.done (w.isDead dsn), w') ∧ w'.servers = w.servers ∧
      Marked dsn (if w.isDead dsn then w.dead.lookup dsn else none) w w' ∧
      (w.dead.lookup dsn ≠ none → w.clock < w'.clock) := by
  cases hd : w.dead.lookup dsn with
  | none =>
    have hdead : w.isDead dsn = false := by simp [isDead, hd]
    refine ⟨w, ?_, rfl, ⟨Nat.le_refl _, by simp [hd], fun _ _ => rfl⟩, fun h => absurd rfl h⟩
    simp only [isServerDead, bind, Run.bind, Run.state, hd, hdead]
    rfl
  | some u =>
    by_cases hu : w.clock < u
    · have hdead : w.isDead dsn = true := by simp [isDead, hd, hu]
      refine ⟨{ w with clock := w.clock + 1 }, ?_, rfl,
        ⟨Nat.le_succ _, by simp [hd, hdead], fun _ _ => rfl⟩, fun _ => Nat.lt_succ_self _⟩
      simp only [isServerDead, bind, Run.bind, Run.state, Run.now, hd, hu, hdead]
      rfl
    · have hdead : w.isDead dsn = false := by simp [isDead, hd, hu]
      let w' : RunState σ := { w with
        clock := w.clock + 1
        dead := w.dead.filter fun d => d.1 != dsn }
      have hothers : ∀ d, d ≠ dsn → w'.dead.lookup d = w.dead.lookup d := fun d hne =>
        (lookup_filter_ne dsn d w.dead).trans (if_neg hne)
      refine ⟨w', ?_, rfl, ⟨Nat.le_succ _, by simp [w', lookup_filter_ne, hdead], hothers⟩,
        fun _ => Nat.lt_succ_self _⟩
      simp only [isServerDead, bind, Run.bind, Run.state, Run.now, hd, hu, hdead]
      rfl

theorem markServerDead_eq (dsn : String) (w : RunState σ) :
    ∃ u w', c.markServerDead dsn w = (.done (), w') ∧ w'.servers = w.servers ∧
      Marked dsn (some u) w w' ∧ w.clock ≤ u := by
  let u := w.clock + c.connection.config.serverRetryInterval * 1000000000
  let w' : RunState σ := { w with
    clock := w.clock + 1
    dead := (dsn, u) :: w.dead.filter fun d => d.1 != dsn }
  have hothers : ∀ d, d ≠ dsn → w'.dead.lookup d = w.dead.lookup d := fun d hne => by
    have hcons : (d == dsn) = false := beq_eq_false_iff_ne.mpr hne
    simp only [w', List.lookup_cons, hcons, lookup_filter_ne, if_neg hne]
  exact ⟨u, w', rfl, rfl, ⟨Nat.le_succ _, by simp [w'], hothers⟩, Nat.le_add_right _ _⟩

theorem acquire_done (pool : Pool) (w : RunState σ)
    (h : (c.backend.acquire pool w.servers).1 = .done ()) :
    c.acquire pool w = (.done ⟨pool, w.nextLink⟩, { w with
      servers := (c.backend.acquire pool w.servers).2
      nextLink := w.nextLink + 1
      journal := .acquired ⟨pool, w.nextLink⟩ :: w.journal }) := by
  simp only [acquire, bind, Run.bind, Run.ask, h]
  rfl

theorem acquire_failed {pool : Pool} {e : Error}
    (h : (c.backend.acquire pool w.servers).1 = .failed e) :
    c.acquire pool w =
      (.failed e, { w with servers := (c.backend.acquire pool w.servers).2 }) := by
  simp only [acquire, bind, Run.bind, Run.ask, h]

/-- How a connection is looked for. A server that is skipped is passed over. The others are asked,
and the first that is up gives a connection; those before it are marked. -/
inductive Search (c : Client σ) (up : Pool → Bool) :
    List Pool → RunState σ → Option Link → RunState σ → Prop
  | nil {w : RunState σ} : Search c up [] w none w
  | skip {p : Pool} {pools : List Pool} {w w₁ w' : RunState σ} {found : Option Link} :
    w.isDead p.dsn = true → Marked p.dsn (w.dead.lookup p.dsn) w w₁ → w₁.servers = w.servers →
      Search c up pools w₁ found w' → Search c up (p :: pools) w found w'
  | take {p : Pool} {pools : List Pool} {w w' : RunState σ} {link : Link} :
    w.isDead p.dsn = false → up p = true → Marked p.dsn none w w' →
      w'.servers = (c.backend.acquire p w.servers).2 → link.pool = p →
        Search c up (p :: pools) w (some link) w'
  | pass {p : Pool} {pools : List Pool} {w w₁ w' : RunState σ} {until_ : Nat}
      {found : Option Link} :
    w.isDead p.dsn = false → up p = false →
      Marked p.dsn (some until_) w w₁ → w.dead.lookup p.dsn ≠ some until_ →
        w₁.servers = (c.backend.acquire p w.servers).2 →
          Search c up pools w₁ found w' → Search c up (p :: pools) w found w'

/-- As long as every server stays up or down, `openFirst` looks for a connection like this. -/
theorem openFirst_search : ∀ (pools : List Pool) (w : RunState σ),
    c.backend.Steady up pools w.servers →
      ∃ found w', c.openFirst pools w = (.done found, w') ∧ Search c up pools w found w'
  | [], w, _ => ⟨none, w, rfl, .nil⟩
  | p :: pools, w, hsteady => by
    obtain ⟨w₁, hcheck, hservers, hmarked, hticked⟩ := isServerDead_eq p.dsn w
    have hlater : ∀ {w₂ : RunState σ}, c.backend.Asked w.servers w₂.servers →
        c.backend.Steady up pools w₂.servers := fun h =>
      (hsteady.later h).subset (List.subset_cons_self p pools)
    cases hdead : w.isDead p.dsn with
    | true =>
      rw [hdead] at hcheck hmarked
      obtain ⟨found, w', hrun, hsearch⟩ := openFirst_search pools w₁ (hlater (hservers ▸ .rest))
      exact ⟨found, w', (Run.bind_done hcheck).trans hrun, .skip hdead hmarked hservers hsearch⟩
    | false =>
      rw [hdead] at hcheck hmarked
      have hp := hsteady w.servers .rest p List.mem_cons_self
      rw [← hservers] at hp
      cases hup : up p with
      | true =>
        have hdone := Run.attempt_done
          (acquire_done (c := c) p w₁ (by simpa [hup] using hp))
        exact ⟨_, _, (Run.bind_done hcheck).trans (Run.bind_done hdone),
          .take hdead hup ⟨hmarked.clock, hmarked.here, hmarked.others⟩ (by rw [← hservers]) rfl⟩
      | false =>
        obtain ⟨e, he⟩ : ∃ e, (c.backend.acquire p w₁.servers).1 = .failed e := by
          simpa [hup] using hp
        have hfailed := Run.attempt_failed (acquire_failed he)
        obtain ⟨w₂, hlog, hclock, hdead₂, hservers₂⟩ : ∃ w₂,
            (Run.log .warn ("Connection (" ++ p.dsn ++ ") failed: " ++ e.message) : Run σ Unit)
              { w₁ with servers := (c.backend.acquire p w₁.servers).2 } = (.done (), w₂) ∧
            w₂.clock = w₁.clock ∧ w₂.dead = w₁.dead ∧
              w₂.servers = (c.backend.acquire p w.servers).2 :=
          ⟨_, rfl, rfl, rfl, by rw [← hservers]⟩
        have hmarked₂ : Marked p.dsn none w w₂ :=
          ⟨hclock ▸ hmarked.clock, hdead₂ ▸ hmarked.here, hdead₂ ▸ hmarked.others⟩
        obtain ⟨u, w₃, hmark, hservers₃, hmarked₃, hu⟩ := markServerDead_eq (c := c) p.dsn w₂
        have hasked : w₃.servers = (c.backend.acquire p w.servers).2 := hservers₃.trans hservers₂
        have hnew : w.dead.lookup p.dsn ≠ some u := fun hold => by
          have hover := isDead_eq_false.mp hdead u hold
          have hlate : w.clock < w₁.clock := hticked (by simp [hold])
          omega
        obtain ⟨found, w', hrun, hsearch⟩ := openFirst_search pools w₃
          (hlater (hasked ▸ Backend.Asked.rest.acquire p))
        refine ⟨found, w', ?_,
          .pass hdead hup (hmarked₂.trans hmarked₃) hnew hasked hsearch⟩
        refine (Run.bind_done hcheck).trans ((Run.bind_done hfailed).trans ?_)
        exact (Run.bind_done hlog).trans ((Run.bind_done hmark).trans hrun)

namespace Search

theorem clock (h : Search c up pools w found w') : w.clock ≤ w'.clock := by
  induction h with
  | nil => exact Nat.le_refl _
  | skip _ hm _ _ ih => exact Nat.le_trans hm.clock ih
  | take _ _ hm _ _ => exact hm.clock
  | pass _ _ hm _ _ _ ih => exact Nat.le_trans hm.clock ih

/-- The marks of servers outside the list stay as they are. -/
theorem lookup (h : Search c up pools w found w') {d : String} (hd : d ∉ pools.map Pool.dsn) :
    w'.dead.lookup d = w.dead.lookup d := by
  induction h with
  | nil => rfl
  | skip _ hm _ _ ih =>
    rw [List.map_cons, List.mem_cons, not_or] at hd
    exact (ih hd.2).trans (hm.others d hd.1)
  | take _ _ hm _ _ =>
    rw [List.map_cons, List.mem_cons, not_or] at hd
    exact hm.others d hd.1
  | pass _ _ hm _ _ _ ih =>
    rw [List.map_cons, List.mem_cons, not_or] at hd
    exact (ih hd.2).trans (hm.others d hd.1)

end Search

/-! ## What a search comes to -/

/-- The servers that are asked in vain: those that are not skipped, up to the first that is up. -/
def failing (up : Pool → Bool) (w : RunState σ) (pools : List Pool) : List Pool :=
  (w.live pools).takeWhile fun p => !up p

/-- The servers that are asked for a connection. -/
def asked (up : Pool → Bool) (w : RunState σ) (pools : List Pool) : List Pool :=
  failing up w pools ++ ((w.live pools).find? up).toList

/-- What the search for a connection comes to: a connection to the first server that is up and not
skipped, if there is one. Servers that are skipped are not asked, and of those that are asked exactly
the ones that fail are skipped from then on. -/
structure Selected (c : Client σ) (up : Pool → Bool) (pools : List Pool) (w : RunState σ)
    (found : Option Link) (w' : RunState σ) : Prop where
  some_iff : found.isSome = true ↔ ∃ p ∈ pools, w.isDead p.dsn = false ∧ up p = true
  first : found.map Link.pool = (w.live pools).find? up
  asks : w'.servers = c.backend.askAll (asked up w pools) w.servers
  spares : ∀ p ∈ asked up w pools, p ∈ pools ∧ w.isDead p.dsn = false
  dead : ∀ dsn, w'.isDead dsn = true ↔
    w.isDead dsn = true ∨ ∃ p ∈ failing up w pools, p.dsn = dsn

theorem asked_cons_dead {p : Pool} (h : w.isDead p.dsn = true) :
    asked up w (p :: pools) = asked up w pools ∧ failing up w (p :: pools) = failing up w pools := by
  simp [asked, failing, live_cons_dead h]

theorem asked_cons_up {p : Pool} (h : w.isDead p.dsn = false) (hp : up p = true) :
    asked up w (p :: pools) = [p] ∧ failing up w (p :: pools) = [] := by
  simp [asked, failing, live_cons_alive h, hp]

theorem asked_cons_down {p : Pool} (h : w.isDead p.dsn = false) (hp : up p = false) :
    asked up w (p :: pools) = p :: asked up w pools ∧
      failing up w (p :: pools) = p :: failing up w pools := by
  simp [asked, failing, live_cons_alive h, hp]

theorem asked_congr {w₁ : RunState σ} (h : w₁.live pools = w.live pools) :
    asked up w₁ pools = asked up w pools ∧ failing up w₁ pools = failing up w pools := by
  simp [asked, failing, h]

theorem mem_asked {p : Pool} (h : p ∈ asked up w pools) : p ∈ w.live pools := by
  rcases List.mem_append.mp h with h | h
  · exact (List.takeWhile_sublist _).subset h
  · exact List.mem_of_find?_eq_some (Option.mem_toList.mp h)

namespace Search

theorem first (h : Search c up pools w found w') (hnodup : (pools.map Pool.dsn).Nodup)
    (hmarks : NoneExpire w w') : found.map Link.pool = (w.live pools).find? up := by
  induction h with
  | nil => rfl
  | skip hdead hm _ hrest ih =>
    obtain ⟨hp, hnodup⟩ := List.nodup_cons.mp hnodup
    rw [live_cons_dead hdead, ← hmarks.live_eq hm hrest.clock hp]
    exact ih hnodup (hmarks.after hm ((hrest.lookup hp).trans hm.here))
  | take hlive hup _ _ hpool => simp [live_cons_alive hlive, hup, hpool]
  | pass hlive hdown hm _ _ hrest ih =>
    obtain ⟨hp, hnodup⟩ := List.nodup_cons.mp hnodup
    rw [live_cons_alive hlive, List.find?_cons_of_neg (by simp [hdown]),
      ← hmarks.live_eq hm hrest.clock hp]
    exact ih hnodup (hmarks.after hm ((hrest.lookup hp).trans hm.here))

theorem asks (h : Search c up pools w found w') (hnodup : (pools.map Pool.dsn).Nodup)
    (hmarks : NoneExpire w w') :
    w'.servers = c.backend.askAll (asked up w pools) w.servers := by
  induction h with
  | nil => rfl
  | skip hdead hm hservers hrest ih =>
    obtain ⟨hp, hnodup⟩ := List.nodup_cons.mp hnodup
    rw [ih hnodup (hmarks.after hm ((hrest.lookup hp).trans hm.here)), hservers,
      (asked_cons_dead hdead).1, (asked_congr (hmarks.live_eq hm hrest.clock hp)).1]
  | take hlive hup _ hservers _ =>
    rw [(asked_cons_up hlive hup).1, hservers]
    rfl
  | pass hlive hdown hm _ hservers hrest ih =>
    obtain ⟨hp, hnodup⟩ := List.nodup_cons.mp hnodup
    rw [ih hnodup (hmarks.after hm ((hrest.lookup hp).trans hm.here)), hservers,
      (asked_cons_down hlive hdown).1, (asked_congr (hmarks.live_eq hm hrest.clock hp)).1]
    rfl

theorem dead (h : Search c up pools w found w') (hnodup : (pools.map Pool.dsn).Nodup)
    (hmarks : NoneExpire w w') (dsn : String) :
    w'.isDead dsn = true ↔ w.isDead dsn = true ∨ ∃ p ∈ failing up w pools, p.dsn = dsn := by
  induction h with
  | nil => simp [failing]
  | @skip p pools w w₁ w' found hdead hm _ hrest ih =>
    obtain ⟨hp, hnodup⟩ := List.nodup_cons.mp hnodup
    have hsame : w₁.isDead dsn = w.isDead dsn := by
      refine hmarks.isDead_eq hm.clock hrest.clock ?_
      by_cases hdsn : dsn = p.dsn
      · rw [hdsn, hm.here]
      · exact hm.others dsn hdsn
    rw [ih hnodup (hmarks.after hm ((hrest.lookup hp).trans hm.here)), hsame,
      (asked_cons_dead hdead).2, (asked_congr (hmarks.live_eq hm hrest.clock hp)).2]
  | @take p pools w w' link hlive hup hm _ _ =>
    have hsame : w'.isDead dsn = w.isDead dsn := by
      by_cases hdsn : dsn = p.dsn
      · rw [hdsn, hlive]
        exact isDead_eq_false.mpr fun u hu => absurd (hm.here.symm.trans hu) nofun
      · exact hmarks.isDead_eq hm.clock (Nat.le_refl _) (hm.others dsn hdsn)
    simp [hsame, (asked_cons_up hlive hup).2]
  | @pass p pools w w₁ w' u found hlive hdown hm hnew _ hrest ih =>
    obtain ⟨hp, hnodup⟩ := List.nodup_cons.mp hnodup
    have hlast : w'.dead.lookup p.dsn = some u := (hrest.lookup hp).trans hm.here
    rw [ih hnodup (hmarks.after hm hlast), (asked_cons_down hlive hdown).2,
      (asked_congr (hmarks.live_eq hm hrest.clock hp)).2]
    by_cases hdsn : dsn = p.dsn
    · -- The mark was made just now, and it is still in force at the end.
      have hforce : w'.clock < u := hmarks.new p.dsn u hlast hnew
      have hnow : w₁.isDead dsn = true := by
        rw [hdsn]
        exact isDead_eq_true.mpr ⟨u, hm.here, Nat.lt_of_le_of_lt hrest.clock hforce⟩
      exact iff_of_true (.inl hnow) (.inr ⟨p, List.mem_cons_self, hdsn.symm⟩)
    · have hsame : w₁.isDead dsn = w.isDead dsn :=
        hmarks.isDead_eq hm.clock hrest.clock (hm.others dsn hdsn)
      simp [hsame, Ne.symm hdsn]

/-- While no mark runs out, a search among servers with different names comes to what
`Selected` says. -/
theorem selected (h : Search c up pools w found w') (hnodup : (pools.map Pool.dsn).Nodup)
    (hmarks : NoneExpire w w') : Selected c up pools w found w' where
  some_iff := by
    rw [← Option.isSome_map (f := Link.pool), h.first hnodup hmarks, List.find?_isSome]
    constructor
    · rintro ⟨p, hp, hup⟩
      exact ⟨p, (mem_live.mp hp).1, (mem_live.mp hp).2, hup⟩
    · rintro ⟨p, hp, hlive, hup⟩
      exact ⟨p, mem_live.mpr ⟨hp, hlive⟩, hup⟩
  first := h.first hnodup hmarks
  asks := h.asks hnodup hmarks
  spares _ hp := mem_live.mp (mem_asked hp)
  dead := h.dead hnodup hmarks

end Search

theorem arranged_done (shuffled : Bool) (pools : List Pool) (w : RunState σ) :
    ∃ order servers, c.arranged shuffled pools w = (.done order, { w with servers }) ∧
      order.Perm pools ∧ c.backend.Asked w.servers servers := by
  cases shuffled with
  | true =>
    exact ⟨_, _, rfl, c.backend.arrange_perm pools w.servers, Backend.Asked.rest.arrange pools⟩
  | false => exact ⟨pools, w.servers, rfl, .refl pools, .rest⟩

/-- While no mark runs out and every server stays up or down:

- Trying servers with different names in any order comes to what `Selected` says.
- Opening a connection for writing tries the masters in some order. It fails because there is no
  master exactly if none is up and not skipped, and gives a connection otherwise. -/
theorem selects_server (c : Client σ) (up : Pool → Bool) (w : RunState σ) :
    (∀ pools : List Pool, (pools.map Pool.dsn).Nodup → c.backend.Steady up pools w.servers →
      NoneExpire w (c.openFirst pools w).2 →
        ∃ found, (c.openFirst pools w).1 = .done found ∧
          Selected c up pools w found (c.openFirst pools w).2) ∧
    (c.connection.masters ≠ [] → (c.connection.masters.map Pool.dsn).Nodup →
      c.backend.Steady up c.connection.masters w.servers →
        ∀ attempt, NoneExpire w (c.openMain attempt w).2 →
          ((c.openMain attempt w).1 = .failed (.connectionUnavailable .noMaster) ↔
            ¬ ∃ p ∈ c.connection.masters, w.isDead p.dsn = false ∧ up p = true) ∧
          ∃ order servers found, order.Perm c.connection.masters ∧
            Selected c up order { w with servers } found (c.openMain attempt w).2 ∧
            (c.openMain attempt w).1 =
              found.elim (.failed (.connectionUnavailable .noMaster)) .done) := by
  refine ⟨fun pools hnodup hsteady hmarks => ?_, fun hmasters hnodup hsteady attempt hmarks => ?_⟩
  · obtain ⟨found, w', hrun, hsearch⟩ := openFirst_search pools w hsteady
    rw [hrun] at hmarks ⊢
    exact ⟨found, rfl, hsearch.selected hnodup hmarks⟩
  · obtain ⟨order, servers, harranged, hperm, hasked⟩ :=
      arranged_done (c := c) c.connection.config.shuffleMasters c.connection.masters w
    obtain ⟨found, w', hrun, hsearch⟩ := openFirst_search order { w with servers }
      ((hsteady.later hasked).subset hperm.subset)
    have hopen : c.openMain attempt w =
        (found.elim (.failed (.connectionUnavailable .noMaster)) .done, w') := by
      unfold openMain
      rw [if_pos hmasters, Run.bind_done harranged, Run.bind_done hrun]
      cases found <;> rfl
    rw [hopen] at hmarks ⊢
    have hselected : Selected c up order { w with servers } found w' :=
      hsearch.selected ((hperm.map Pool.dsn).nodup_iff.mpr hnodup) ⟨hmarks.old, hmarks.new⟩
    have hsome : found.isSome = true ↔
        ∃ p ∈ c.connection.masters, w.isDead p.dsn = false ∧ up p = true := by
      rw [hselected.some_iff]
      simp only [hperm.mem_iff]
      rfl
    refine ⟨?_, order, servers, found, hperm, hselected, rfl⟩
    rw [← hsome]
    cases found <;> simp

/-- A client of three masters. -/
def threeMasters : Client Recorder :=
  { rehearsal with
    connection := { rehearsal.connection with
      primary := none
      masters :=
        [⟨.master 0, "postgres://a"⟩, ⟨.master 1, "postgres://b"⟩, ⟨.master 2, "postgres://c"⟩] } }

/-- The first of the three masters is skipped, and the second one cannot be reached. -/
def outage : RunState Recorder :=
  { RunState.ofConnection threeMasters.connection fun id =>
      { ScriptedServer.empty with unreachable := id == .master 1 } with
    dead := [("postgres://a", 600000000000)] }

theorem recorder_asked {r r' : Recorder} (h : recorder.Asked r r') : r' = r := by
  induction h with
  | rest => rfl
  | acquire pool _ ih =>
    change (Recorder.acquire pool _).2 = r
    unfold Recorder.acquire
    split <;> exact ih
  | arrange _ _ ih => exact ih

theorem outage_selects : outage.isDead "postgres://a" = true ∧
    ∃ found w', threeMasters.openFirst threeMasters.connection.masters outage
        = (.done (some found), w') ∧
      found.pool.dsn = "postgres://c" ∧ w'.isDead "postgres://b" = true ∧
      (threeMasters.openMain 0 outage).1 ≠ .failed (.connectionUnavailable .noMaster) := by
  let up : Pool → Bool := fun p => p.id != .master 1
  have hnodup : (threeMasters.connection.masters.map Pool.dsn).Nodup := by decide
  have hsteady : threeMasters.backend.Steady up threeMasters.connection.masters
      outage.servers := by
    intro s' hasked p hp
    rw [recorder_asked hasked]
    simp only [threeMasters, List.mem_cons, List.not_mem_nil, or_false] at hp
    rcases hp with rfl | rfl | rfl
    · rfl
    · exact ⟨_, rfl⟩
    · rfl
  have hselects := selects_server threeMasters up outage
  obtain ⟨found, hrun, hselected⟩ := hselects.1 _ hnodup hsteady (.of_forall (by decide))
  obtain ⟨hfails, -⟩ := hselects.2 (by decide) hnodup hsteady 0 (.of_forall (by decide))
  have hlive : ∃ p ∈ threeMasters.connection.masters,
      outage.isDead p.dsn = false ∧ up p = true := by decide
  have hfirst : found.map Link.pool = some ⟨.master 2, "postgres://c"⟩ := hselected.first
  obtain ⟨link, rfl, hpool⟩ := Option.map_eq_some_iff.mp hfirst
  refine ⟨by decide, link, _, Prod.ext hrun rfl, by rw [hpool], ?_, fun h => hfails.mp h hlive⟩
  exact (hselected.dead _).mpr (.inr ⟨⟨.master 1, "postgres://b"⟩, by decide, rfl⟩)

end Client

end QueryKit
