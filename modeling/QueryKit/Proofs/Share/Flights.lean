import QueryKit.Proofs.Key.Lookup
import QueryKit.Share.Read

/-!
# One flight for each key

- `ShareStep`: what happens to the callers of a share group, one step at a time; `ShareBoard.after`
  is the board after some steps, the latest first.
- `FlightEvent`: a flight departs with its leader, and ends with a result of this leader or without
  it; `ShareBoard.history` notes the events of a run.
- `ShareBoard.Logged`: the flights are those that departed, and have ended as the events say.
- `ShareBoard.Sound`: besides, the entries of the map are the flights whose leaders are alive. The
  moves of a caller keep it (`Sound.departed`, `Sound.ended`, `Sound.quiet`), so it holds along
  every run (`sound_after`).
- `ShareBoard.single_flight`: what callers and the map can rely on, whatever the interleaving.
-/

namespace QueryKit

variable {ρ : Type}

/-! ## Steps and events -/

/-- A step of a caller. -/
inductive ShareStep (ρ : Type) where
  /-- A new call; an earlier call of the same name goes away. -/
  | start (id key : String)
  /-- A call goes on as far as it can. -/
  | poll (id : String)
  /-- The fetch of a call has a result. -/
  | supply (id : String) (result : ρ)
  /-- A caller goes away. -/
  | drop (id : String)

/-- What becomes of the flights. -/
inductive FlightEvent (ρ : Type) where
  /-- A caller becomes the leader of a new flight. -/
  | departed (id key : String) (flight : Nat)
  /-- The leader of a flight returns, or goes away before it does. -/
  | ended (id : String) (flight : Nat) (ending : Flight ρ)

def ShareStep.apply (b : ShareBoard ρ) : ShareStep ρ → ShareBoard ρ
  | start id key => b.start id key
  | poll id => b.poll id
  | supply id result => b.supply id result
  | drop id => b.drop id

namespace ShareBoard

/-- A caller executes the read of a key as the leader of a flight. -/
def Leads (b : ShareBoard ρ) (id key : String) (flight : Nat) : Prop :=
  ∃ r, b.reads.lookup id = some r ∧ r.key = key ∧ r.stage = .leading flight

/-- The part that a call plays in a flight, or would play if it were polled now. -/
def ticket? (b : ShareBoard ρ) (r : SharedRead ρ) : Option Ticket :=
  match r.stage with
  | .idle => some (b.group.arrive r.key).1
  | .leading flight => some (.leader flight)
  | .following flight => some (.follower flight)
  | _ => none

/-- A flight departs when an idle call is polled whose key nobody reads. -/
def departures (b : ShareBoard ρ) (id : String) (r : SharedRead ρ) : List (FlightEvent ρ) :=
  match r.stage, (b.group.arrive r.key).1 with
  | .idle, .leader flight => [.departed id r.key flight]
  | _, _ => []

/-- A flight lands when its leader is polled and has a result. -/
def landings (id : String) (r : SharedRead ρ) (ticket : Option Ticket) : List (FlightEvent ρ) :=
  match ticket, r.supplied with
  | some (.leader flight), some result => [.ended id flight (.landed result)]
  | _, _ => []

/-- A flight is abandoned when its leader goes away before it has landed. -/
def losses (id : String) (r : SharedRead ρ) : List (FlightEvent ρ) :=
  match r.stage with
  | .leading flight => [.ended id flight .abandoned]
  | _ => []

/-- The events of a step, the latest first. -/
def events (b : ShareBoard ρ) : ShareStep ρ → List (FlightEvent ρ)
  | .poll id =>
    match b.reads.lookup id with
    | some r => landings id r (b.ticket? r) ++ b.departures id r
    | none => []
  | .drop id | .start id _ =>
    match b.reads.lookup id with
    | some r => losses id r
    | none => []
  | .supply _ _ => []

/-- The board after steps, the latest of which is the first. -/
def after : List (ShareStep ρ) → ShareBoard ρ
  | [] => .empty
  | x :: earlier => x.apply (after earlier)

/-- The events of steps, the latest first. -/
def history : List (ShareStep ρ) → List (FlightEvent ρ)
  | [] => []
  | x :: earlier => (after earlier).events x ++ history earlier

/-! ## Leaders -/

variable {b b' : ShareBoard ρ} {r r' : SharedRead ρ} {id id' i key key' : String} {n m : Nat}

theorem Leads.inj (h : b.Leads id key n) (h' : b.Leads id key' m) : key' = key ∧ m = n := by
  obtain ⟨r, hr, hk, hs⟩ := h
  obtain ⟨r', hr', hk', hs'⟩ := h'
  rw [hr] at hr'
  cases hr'
  rw [hs] at hs'
  cases hs'
  exact ⟨hk'.symm.trans hk, rfl⟩

theorem leads_put : (b.put id r).Leads i key n ↔
    if i = id then r.key = key ∧ r.stage = .leading n else b.Leads i key n := by
  unfold Leads put
  simp only [lookup_putKeyed]
  split
  · simp
  · rfl

theorem lookup_put (b : ShareBoard ρ) (id : String) (r : SharedRead ρ) :
    (b.put id r).reads.lookup id = some r := by
  simp [put, lookup_putKeyed]

theorem leads_iff_of_lookup (hr : b.reads.lookup id = some r) :
    b.Leads id key n ↔ r.key = key ∧ r.stage = .leading n := by
  simp [Leads, hr]

/-! ## The flights and their events -/

/-- What the events of a run say of the flights so far. -/
structure Logged (past : List (FlightEvent ρ)) (flights : List (Flight ρ)) : Prop where
  known : ∀ {id key n}, .departed id key n ∈ past → n < flights.length
  /-- A flight has one leader and one key. -/
  sole : ∀ {id id' key key' n}, .departed id key n ∈ past → .departed id' key' n ∈ past →
    id' = id ∧ key' = key
  /-- The end of a flight is the one that its leader brought about. -/
  fate : ∀ {id n e}, .ended id n e ∈ past ↔
    (∃ key, .departed id key n ∈ past) ∧ flights[n]? = some e ∧ e ≠ .running

namespace Logged

variable {past : List (FlightEvent ρ)} {flights : List (Flight ρ)} {e : Flight ρ}

theorem departed (h : Logged past flights) (id key : String) :
    Logged (.departed id key flights.length :: past) (flights ++ [.running]) := by
  have hnew : ∀ i k, .departed i k flights.length ∉ past :=
    fun i k hd => Nat.lt_irrefl _ (h.known hd)
  refine ⟨fun {i k n} hd => ?_, fun {i i' k k' n} hd hd' => ?_, fun {i n e} => ?_⟩
  · rw [List.length_append, List.length_singleton]
    rcases List.mem_cons.mp hd with hd | hd
    · cases hd
      exact Nat.lt_succ_self _
    · exact Nat.lt_succ_of_lt (h.known hd)
  · rcases List.mem_cons.mp hd with hd | hd <;> rcases List.mem_cons.mp hd' with hd' | hd'
    · cases hd
      cases hd'
      exact ⟨rfl, rfl⟩
    · cases hd
      exact absurd hd' (hnew _ _)
    · cases hd'
      exact absurd hd (hnew _ _)
    · exact h.sole hd hd'
  · simp only [List.mem_cons, reduceCtorEq, false_or, FlightEvent.departed.injEq]
    rw [h.fate]
    constructor
    · rintro ⟨⟨k, hd⟩, he, hne⟩
      exact ⟨⟨k, .inr hd⟩, by rwa [List.getElem?_append_left (h.known hd)], hne⟩
    · rintro ⟨⟨k, ⟨rfl, rfl, rfl⟩ | hd⟩, he, hne⟩
      · simp only [List.getElem?_concat_length, Option.some.injEq] at he
        exact absurd he.symm hne
      · rw [List.getElem?_append_left (h.known hd)] at he
        exact ⟨⟨k, hd⟩, he, hne⟩

theorem ended (h : Logged past flights) (hd : .departed id key n ∈ past)
    (hn : flights[n]? = some .running) (he : e ≠ .running) :
    Logged (.ended id n e :: past) (flights.set n e) := by
  refine ⟨fun {i k m} hi => ?_, fun {i i' k k' m} hi hi' => ?_, fun {i m x} => ?_⟩
  · simp only [List.mem_cons, reduceCtorEq, false_or] at hi
    simpa using h.known hi
  · simp only [List.mem_cons, reduceCtorEq, false_or] at hi hi'
    exact h.sole hi hi'
  · simp only [List.mem_cons, reduceCtorEq, false_or, FlightEvent.ended.injEq]
    rw [h.fate]
    by_cases hnm : m = n
    · subst hnm
      rw [List.getElem?_set_self (h.known hd), hn]
      constructor
      · rintro (⟨rfl, -, rfl⟩ | ⟨-, hx, hne⟩)
        · exact ⟨⟨key, hd⟩, rfl, he⟩
        · cases hx
          exact absurd rfl hne
      · rintro ⟨⟨k, hi⟩, hx, -⟩
        cases hx
        exact .inl ⟨(h.sole hd hi).1, rfl, rfl⟩
    · rw [List.getElem?_set_ne (Ne.symm hnm)]
      simp [hnm]

end Logged

/-! ## The invariant -/

/-- What is known of a board after the events of a run. -/
structure Sound (past : List (FlightEvent ρ)) (b : ShareBoard ρ) : Prop extends
    Logged past b.group.flights where
  /-- The map holds the flights whose leaders are alive, under their keys. -/
  entry : ∀ key n, b.group.inflight.lookup key = some n ↔ ∃ id, b.Leads id key n
  leading : ∀ {id key n}, b.Leads id key n →
    .departed id key n ∈ past ∧ b.group.flights[n]? = some .running
  /-- A follower waits for a flight of its own key. -/
  following : ∀ {id r n}, b.reads.lookup id = some r → r.stage = .following n →
    ∃ l, .departed l r.key n ∈ past
  running : ∀ {id key n}, .departed id key n ∈ past → b.group.flights[n]? = some .running →
    b.Leads id key n

namespace Sound

variable {past : List (FlightEvent ρ)} {e : Flight ρ}

theorem empty : Sound [] (empty : ShareBoard ρ) where
  known := by simp
  sole := by simp
  fate := by simp
  entry key n := by simp [ShareBoard.empty, ShareGroup.empty, Leads]
  leading := by simp [ShareBoard.empty, Leads]
  following := by simp [ShareBoard.empty]
  running := by simp

theorem leader_unique (h : Sound past b) (hl : b.Leads id key n) (hl' : b.Leads id' key m) :
    id' = id ∧ m = n := by
  have he := (h.entry key n).mpr ⟨id, hl⟩
  have he' := (h.entry key m).mpr ⟨id', hl'⟩
  rw [he] at he'
  cases he'
  exact ⟨(h.sole (h.leading hl).1 (h.leading hl').1).1, rfl⟩

/-- A move that leaves the flights and their leaders as they are. -/
theorem quiet (h : Sound past b) (hg : b'.group = b.group)
    (hl : ∀ id key n, b'.Leads id key n ↔ b.Leads id key n)
    (hf : ∀ {id r n}, b'.reads.lookup id = some r → r.stage = .following n →
      ∃ l, .departed l r.key n ∈ past) : Sound past b' where
  toLogged := hg ▸ h.toLogged
  entry key n := by simp only [hg, hl, h.entry]
  leading hi := hg ▸ h.leading ((hl _ _ _).mp hi)
  following := hf
  running hd hr := (hl _ _ _).mpr (h.running hd (hg ▸ hr))

/-- A call changes, but neither leads before nor after. -/
theorem put (h : Sound past b) (hr : b.reads.lookup id = some r) (hk : r'.key = r.key)
    (hs : ∀ n, r'.stage = .leading n ↔ r.stage = .leading n)
    (hf : ∀ n, r'.stage = .following n → ∃ l, .departed l r.key n ∈ past) :
    Sound past (b.put id r') := by
  refine h.quiet rfl (fun i key n => ?_) fun {i s n} hi hn => ?_
  · rw [leads_put]
    split
    · rename_i hi
      rw [hi, leads_iff_of_lookup hr, hk, hs]
    · rfl
  · unfold ShareBoard.put at hi
    rw [lookup_putKeyed] at hi
    split at hi
    · cases hi
      exact hk ▸ hf n hn
    · exact h.following hi hn

/-- The board when an idle call has become the leader of a new flight. -/
def departing (b : ShareBoard ρ) (id : String) (r : SharedRead ρ) : ShareBoard ρ :=
  { b with group := (b.group.arrive r.key).2, fetches := b.fetches + 1 }.put id
    { r with stage := .leading b.group.flights.length }

theorem departing_group (i : String) (hk : b.group.inflight.lookup r.key = none) :
    (departing b i r).group = ⟨b.group.inflight ++ [(r.key, b.group.flights.length)],
      b.group.flights ++ [.running]⟩ := by
  simp only [departing, ShareBoard.put, ShareGroup.arrive, hk]

/-- The new leader, or one of the earlier ones. -/
theorem departing_leads (hr : b.reads.lookup id = some r) (hs : r.stage = .idle) :
    (departing b id r).Leads i key n ↔
      (i = id ∧ key = r.key ∧ n = b.group.flights.length) ∨ b.Leads i key n := by
  have hidle : ∀ key n, ¬ b.Leads id key n := by
    simp [leads_iff_of_lookup hr, hs]
  unfold departing
  rw [leads_put]
  split
  · next hi =>
    subst hi
    simp [hidle, eq_comm]
  · next hi =>
    simp only [hi, false_and, false_or]
    rfl

/-- A caller leads a new flight. -/
theorem departed (h : Sound past b) (hr : b.reads.lookup id = some r) (hs : r.stage = .idle)
    (hk : b.group.inflight.lookup r.key = none) :
    Sound (.departed id r.key b.group.flights.length :: past) (departing b id r) := by
  have hgroup := departing_group id hk
  refine ⟨?_, fun key n => ?_, fun {i key n} hi => ?_, fun {i s n} hi hn => ?_,
    fun {i key n} hd hn => ?_⟩
  · rw [hgroup]
    exact h.toLogged.departed id r.key
  · simp only [hgroup, departing_leads hr hs, lookup_append_single]
    by_cases hkey : key = r.key
    · subst hkey
      have hnone : ∀ i, ¬ b.Leads i r.key n := fun i hi => by
        have hentry := (h.entry r.key n).mpr ⟨i, hi⟩
        rw [hk] at hentry
        cases hentry
      simp [hk, hnone, eq_comm]
    · simp [hkey, h.entry]
  · rw [hgroup]
    rcases (departing_leads hr hs).mp hi with ⟨rfl, rfl, rfl⟩ | hi
    · simp
    · have hd := h.leading hi
      refine ⟨List.mem_cons_of_mem _ hd.1, ?_⟩
      rw [List.getElem?_append_left (h.known hd.1)]
      exact hd.2
  · unfold departing ShareBoard.put at hi
    rw [lookup_putKeyed] at hi
    split at hi
    · cases hi
      cases hn
    · obtain ⟨l, hl⟩ := h.following hi hn
      exact ⟨l, List.mem_cons_of_mem _ hl⟩
  · rw [hgroup] at hn
    rw [departing_leads hr hs]
    rcases List.mem_cons.mp hd with hd | hd
    · cases hd
      exact .inl ⟨rfl, rfl, rfl⟩
    · rw [List.getElem?_append_left (h.known hd)] at hn
      exact .inr (h.running hd hn)

/-- The leader of a flight returns or goes away. -/
theorem ended (h : Sound past b) (hd : b.Leads id key n) (he : e ≠ .running)
    (hg : b'.group = b.group.conclude key n e)
    (hl : ∀ i k m, b'.Leads i k m ↔ i ≠ id ∧ b.Leads i k m)
    (hf : ∀ {i r m}, b'.reads.lookup i = some r → r.stage = .following m →
      b.reads.lookup i = some r) : Sound (.ended id n e :: past) b' := by
  obtain ⟨hdeparted, hn⟩ := h.leading hd
  have hother : ∀ {i k m}, i ≠ id → b.Leads i k m → n ≠ m := by
    rintro i k m hi hm rfl
    exact hi (h.sole hdeparted (h.leading hm).1).1
  refine ⟨?_, fun k m => ?_, fun {i k m} hi => ?_, fun {i s m} hi hm => ?_, fun {i k m} hi hm => ?_⟩
  · rw [hg]
    exact h.toLogged.ended hdeparted hn he
  · simp only [hg, ShareGroup.conclude, lookup_filter_ne, hl]
    split
    · next hk =>
      subst hk
      simp only [reduceCtorEq, false_iff, not_exists, not_and]
      exact fun i hi hm => hi (h.leader_unique hd hm).1
    · next hk =>
      rw [h.entry]
      refine exists_congr fun i => ⟨fun hi => ⟨?_, hi⟩, And.right⟩
      rintro rfl
      exact hk (hd.inj hi).1
  · obtain ⟨hi, hm⟩ := (hl i k m).mp hi
    refine ⟨List.mem_cons_of_mem _ (h.leading hm).1, ?_⟩
    rw [hg, ShareGroup.conclude, List.getElem?_set_ne (hother hi hm)]
    exact (h.leading hm).2
  · obtain ⟨l, hl⟩ := h.following (hf hi hm) hm
    exact ⟨l, List.mem_cons_of_mem _ hl⟩
  · simp only [List.mem_cons, reduceCtorEq, false_or] at hi
    rw [hg, ShareGroup.conclude] at hm
    have hnm : n ≠ m := by
      rintro rfl
      rw [List.getElem?_set_self (h.known hdeparted)] at hm
      exact he (Option.some.inj hm)
    rw [List.getElem?_set_ne hnm] at hm
    have hi := h.running hi hm
    refine (hl i k m).mpr ⟨?_, hi⟩
    rintro rfl
    exact hnm (hd.inj hi).2.symm

/-! ## What a step keeps -/

/-- How many fetches were started does not matter. -/
theorem fetches (h : Sound past b) (k : Nat) : Sound past { b with fetches := k } :=
  h.quiet rfl (fun _ _ _ => Iff.rfl) h.following

/-- The leader of a flight goes on, and returns if it has a result. -/
theorem lead (h : Sound past (b.put id { r with stage := .leading n })) :
    Sound (landings id r (some (.leader n)) ++ past) (b.lead id r n) := by
  unfold ShareBoard.lead
  split
  · rename_i result hsup
    have hl : landings id r (some (.leader n)) = [.ended id n (.landed result)] := by
      simp [landings, hsup]
    rw [hl]
    refine h.ended (leads_put.mpr (by simp)) (by simp) rfl (fun i k m => ?_) fun {i s m} hi hm => ?_
    · simp only [leads_put]
      split
      · simp [*]
      · simp only [Leads, *, ne_eq, not_false_eq_true, true_and]
    · simp only [ShareBoard.put, lookup_putKeyed] at hi ⊢
      split at hi
      · cases hi
        cases hm
      · rename_i hne
        rwa [if_neg hne]
  · rename_i hsup
    have hl : landings id r (some (.leader n)) = [] := by
      simp [landings, hsup]
    rwa [hl]

theorem readAlone (h : Sound past b) (hr : b.reads.lookup id = some r)
    (hs : ∀ n, r.stage ≠ .leading n) : Sound past (b.readAlone id r) := by
  unfold ShareBoard.readAlone
  split <;> exact h.put hr rfl (by simp [hs]) (by simp)

theorem follow (h : Sound past b) (hr : b.reads.lookup id = some r)
    (hs : ∀ n, r.stage ≠ .leading n) (hd : ∃ l, .departed l r.key n ∈ past) :
    Sound past (b.follow id r n) := by
  unfold ShareBoard.follow
  split
  · refine h.put hr rfl (by simp [hs]) fun m hm => ?_
    cases hm
    exact hd
  · exact h.put hr rfl (by simp [hs]) (by simp)
  · exact (h.fetches _).readAlone hr hs

theorem poll (h : Sound past b) (id : String) :
    Sound (b.events (.poll id) ++ past) (b.poll id) := by
  simp only [events, ShareBoard.poll]
  cases hr : b.reads.lookup id with
  | none => exact h
  | some r =>
    simp only [departures, ticket?, pollRead]
    cases hs : r.stage with
    | idle =>
      cases hk : b.group.inflight.lookup r.key with
      | some n =>
        simp only [ShareGroup.arrive, hk, landings, List.nil_append]
        exact h.follow hr (by simp [hs])
          ((h.entry r.key n).mp hk |>.imp fun l hl => (h.leading hl).1)
      | none =>
        have hd := h.departed hr hs hk
        simp only [departing, ShareGroup.arrive, hk] at hd ⊢
        rw [List.append_assoc]
        exact hd.lead
    | leading n =>
      rw [List.append_nil]
      exact (h.put hr rfl (by simp [hs]) (by simp) :
        Sound past (b.put id { r with stage := .leading n })).lead
    | following n => exact h.follow hr (by simp [hs]) (h.following hr hs)
    | alone => exact h.readAlone hr (by simp [hs])
    | done result => exact h

theorem lookup_drop (b : ShareBoard ρ) (id i : String) :
    (b.drop id).reads.lookup i = if i = id then none else b.reads.lookup i := by
  unfold ShareBoard.drop
  cases hr : b.reads.lookup id with
  | none =>
    simp only
    split
    · rename_i hi
      rw [hi, hr]
    · rfl
  | some r =>
    simp only
    split <;> exact lookup_filter_ne id i b.reads

theorem drop (h : Sound past b) (id : String) :
    Sound (b.events (.drop id) ++ past) (b.drop id) := by
  have hl : ∀ i k m, (b.drop id).Leads i k m ↔ i ≠ id ∧ b.Leads i k m := by
    intro i k m
    unfold Leads
    rw [lookup_drop]
    split <;> simp [*]
  have hf : ∀ {i s m}, (b.drop id).reads.lookup i = some s → s.stage = .following m →
      b.reads.lookup i = some s := by
    intro i s m hi _
    rw [lookup_drop] at hi
    split at hi
    · cases hi
    · exact hi
  -- a call that does not lead goes away unnoticed
  have hquiet : (∀ k m, ¬ b.Leads id k m) → (b.drop id).group = b.group →
      Sound past (b.drop id) := fun hno hg =>
    h.quiet hg (fun i k m => (hl i k m).trans
      ⟨And.right, fun hi => ⟨fun he => hno k m (he ▸ hi), hi⟩⟩)
      fun hi hm => h.following (hf hi hm) hm
  cases hr : b.reads.lookup id with
  | none =>
    simp only [events, hr, List.nil_append]
    exact hquiet (by simp [Leads, hr]) (by simp [ShareBoard.drop, hr])
  | some r =>
    simp only [events, hr, losses]
    cases hs : r.stage with
    | leading n =>
      exact h.ended ((leads_iff_of_lookup hr).mpr ⟨rfl, hs⟩) (by simp)
        (by simp [ShareBoard.drop, hr, hs, ShareGroup.abandon]) hl hf
    | _ =>
      exact hquiet (by simp [leads_iff_of_lookup hr, hs]) (by simp [ShareBoard.drop, hr, hs])

theorem start (h : Sound past b) (id key : String) :
    Sound (b.events (.start id key) ++ past) (b.start id key) := by
  have hnew : ∀ i, (b.start id key).reads.lookup i =
      if i = id then some ⟨key, .idle, none⟩ else (b.drop id).reads.lookup i := by
    intro i
    simp only [ShareBoard.start, lookup_append_single, lookup_drop]
    split <;> simp
  refine (h.drop id).quiet rfl (fun i k m => ?_) fun {i s m} hi hm => ?_
  · unfold Leads
    rw [hnew, lookup_drop]
    split <;> simp
  · rw [hnew] at hi
    split at hi
    · cases hi
      cases hm
    · exact (h.drop id).following hi hm

theorem supply (h : Sound past b) (id : String) (result : ρ) :
    Sound past (b.supply id result) := by
  unfold ShareBoard.supply
  split
  · rename_i r hr
    exact h.put hr rfl (fun _ => Iff.rfl) fun n hn => h.following hr hn
  · exact h

/-- Every step keeps the invariant, with its own events. -/
theorem step (h : Sound past b) (x : ShareStep ρ) : Sound (b.events x ++ past) (x.apply b) := by
  cases x with
  | start id key => exact h.start id key
  | poll id => exact h.poll id
  | supply id result => exact h.supply id result
  | drop id => exact h.drop id

end Sound

theorem sound_after (steps : List (ShareStep ρ)) : Sound (history steps) (after steps) := by
  induction steps with
  | nil => exact .empty
  | cons x earlier ih => exact ih.step x

/-! ## Followers -/

/-- A polled call with the ticket of a follower looks at its flight. -/
theorem poll_of_follower (hr : b.reads.lookup id = some r)
    (ht : b.ticket? r = some (.follower n)) : b.poll id = b.follow id r n := by
  simp only [ticket?] at ht
  simp only [poll, hr, pollRead]
  cases hs : r.stage with
  | idle =>
    rw [hs] at ht
    cases hk : b.group.inflight.lookup r.key with
    | none => simp [ShareGroup.arrive, hk] at ht
    | some m =>
      simp only [ShareGroup.arrive, hk, Option.some.injEq, Ticket.follower.injEq] at ht ⊢
      rw [ht]
  | following m =>
    rw [hs] at ht
    cases ht
    rfl
  | leading m | alone | done result => simp [hs] at ht

/-- A polled call with the ticket of a leader goes on with its own fetch. -/
theorem poll_of_leader {result : ρ} (hr : b.reads.lookup id = some r)
    (ht : b.ticket? r = some (.leader n)) (hsup : r.supplied = some result) :
    (b.poll id).reads.lookup id = some { r with stage := .done result } := by
  simp only [ticket?] at ht
  simp only [poll, hr, pollRead]
  cases hs : r.stage with
  | idle =>
    rw [hs] at ht
    cases hk : b.group.inflight.lookup r.key with
    | some m => simp [ShareGroup.arrive, hk] at ht
    | none => simp [ShareGroup.arrive, hk, lead, hsup, lookup_put]
  | leading m => simp [lead, hsup, lookup_put]
  | following m | alone | done result => simp [hs] at ht

/-- A follower follows a flight of its own key. -/
theorem Sound.departed_of_follower {past : List (FlightEvent ρ)} (h : Sound past b)
    (hr : b.reads.lookup id = some r) (ht : b.ticket? r = some (.follower n)) :
    ∃ l, .departed l r.key n ∈ past := by
  simp only [ticket?] at ht
  cases hs : r.stage with
  | idle =>
    rw [hs] at ht
    cases hk : b.group.inflight.lookup r.key with
    | none => simp [ShareGroup.arrive, hk] at ht
    | some m =>
      simp only [ShareGroup.arrive, hk, Option.some.injEq, Ticket.follower.injEq] at ht
      obtain ⟨l, hl⟩ := (h.entry r.key n).mp (ht ▸ hk)
      exact ⟨l, (h.leading hl).1⟩
  | following m =>
    rw [hs] at ht
    cases ht
    exact h.following hr hs
  | leading m | alone | done result => simp [hs] at ht

/-- What becomes of a polled follower `id` whose flight `n` has the leader `l`. -/
inductive Followed (past : List (FlightEvent ρ)) (b b' : ShareBoard ρ) (id l : String)
    (r : SharedRead ρ) (n : Nat) : Prop where
  /-- The leader is alive: the follower waits. -/
  | waits (alive : b.Leads l r.key n) (same : b'.fetches = b.fetches)
    (stage : b'.reads.lookup id = some { r with stage := .following n })
  /-- The leader returned: the follower returns the same. -/
  | takes (result : ρ) (landed : .ended l n (.landed result) ∈ past) (same : b'.fetches = b.fetches)
    (stage : b'.reads.lookup id = some { r with stage := .done result })
  /-- The leader went away before it returned: the follower runs its own fetch. -/
  | fetches (left : .ended l n .abandoned ∈ past) (more : b'.fetches = b.fetches + 1)
    (stage : b'.reads.lookup id = some { r with stage := r.supplied.elim .alone .done })

theorem fetches_put (b : ShareBoard ρ) (id : String) (r : SharedRead ρ) :
    (b.put id r).fetches = b.fetches :=
  rfl

theorem fetches_drop (b : ShareBoard ρ) (id : String) : (b.drop id).fetches = b.fetches := by
  unfold drop
  split
  · split <;> rfl
  · rfl

theorem fetches_lead (b : ShareBoard ρ) (id : String) (r : SharedRead ρ) (n : Nat) :
    (b.lead id r n).fetches = b.fetches := by
  unfold lead
  split <;> rfl

theorem Sound.followed {past : List (FlightEvent ρ)} (h : Sound past b)
    (hr : b.reads.lookup id = some r) (ht : b.ticket? r = some (.follower n)) :
    ∃ l, .departed l r.key n ∈ past ∧ Followed past b (b.poll id) id l r n := by
  obtain ⟨l, hd⟩ := h.departed_of_follower hr ht
  refine ⟨l, hd, ?_⟩
  rw [poll_of_follower hr ht]
  have hsome : b.group.flights[n]? = some (b.group.await n) := by
    rw [ShareGroup.await, List.getD_eq_getElem?_getD, List.getElem?_eq_getElem (h.known hd),
      Option.getD_some]
  unfold ShareBoard.follow
  cases hf : b.group.await n with
  | running => exact .waits (h.running hd (hf ▸ hsome)) rfl (lookup_put ..)
  | landed result =>
    exact .takes result (h.fate.mpr ⟨⟨_, hd⟩, hf ▸ hsome, by simp⟩) rfl (lookup_put ..)
  | abandoned =>
    have hleft := h.fate.mpr ⟨⟨_, hd⟩, hf ▸ hsome, by simp⟩
    cases hsup : r.supplied with
    | none =>
      exact .fetches hleft (by simp [ShareBoard.readAlone, hsup, fetches_put])
        (by simp [ShareBoard.readAlone, hsup, lookup_put])
    | some result =>
      exact .fetches hleft (by simp [ShareBoard.readAlone, hsup, fetches_put])
        (by simp [ShareBoard.readAlone, hsup, lookup_put])

/-! ## Single flight -/

/-- What callers and the map can rely on after steps. -/
structure SingleFlight (steps : List (ShareStep ρ)) : Prop where
  /-- A key has an entry exactly while a leader of it is alive. -/
  entry : ∀ key n, (after steps).group.inflight.lookup key = some n ↔
    ∃ id, (after steps).Leads id key n
  /-- A key has at most one leader. -/
  leader : ∀ {id id' key n m}, (after steps).Leads id key n → (after steps).Leads id' key m →
    id' = id ∧ m = n
  /-- An entry goes away only as its own leader returns or goes away. -/
  removal : ∀ x key n, (after steps).group.inflight.lookup key = some n →
    (after (x :: steps)).group.inflight.lookup key ≠ some n →
    ∃ id e, (after steps).Leads id key n ∧ .ended id n e ∈ (after steps).events x
  /-- A flight has one leader and one key. -/
  flight : ∀ {id id' key key' n}, .departed id key n ∈ history steps →
    .departed id' key' n ∈ history steps → id' = id ∧ key' = key
  /-- A flight ends once, by its leader. -/
  ending : ∀ {id id' key n e e'}, .departed id key n ∈ history steps →
    .ended id' n e ∈ history steps → .ended id' n e' ∈ history steps → id' = id ∧ e' = e
  /-- A follower keeps to the leader of a flight of its key, unless this leader went away. -/
  follower : ∀ id r n, (after steps).reads.lookup id = some r →
    (after steps).ticket? r = some (.follower n) →
    ∃ l, .departed l r.key n ∈ history steps ∧
      Followed (history steps) (after steps) (after (.poll id :: steps)) id l r n
  /-- A call that runs its own fetch returns what this fetch gave. -/
  own : ∀ id r result, (after steps).reads.lookup id = some r →
    (∃ n, (after steps).ticket? r = some (.leader n)) ∨ r.stage = .alone →
    r.supplied = some result →
    (after (.poll id :: steps)).reads.lookup id = some { r with stage := .done result }
  /-- A fetch starts only as a flight departs, or for a follower whose leader went away. -/
  fetch : ∀ x, (after (x :: steps)).fetches ≠ (after steps).fetches →
    ∃ id r, x = .poll id ∧ (after steps).reads.lookup id = some r ∧
      ((∃ n, .departed id r.key n ∈ (after steps).events x) ∨
        ∃ l n, (after steps).ticket? r = some (.follower n) ∧
          .departed l r.key n ∈ history steps ∧ .ended l n .abandoned ∈ history steps)
  /-- When all callers are gone no key has an entry. -/
  gone : (after steps).reads = [] → (after steps).group.inflight = []

/-- What has to have happened when a fetch starts. -/
theorem Sound.fetch {past : List (FlightEvent ρ)} (h : Sound past b) {x : ShareStep ρ}
    (hx : (x.apply b).fetches ≠ b.fetches) :
    ∃ id r, x = .poll id ∧ b.reads.lookup id = some r ∧
      ((∃ n, .departed id r.key n ∈ b.events x) ∨
        ∃ l n, b.ticket? r = some (.follower n) ∧
          .departed l r.key n ∈ past ∧ .ended l n .abandoned ∈ past) := by
  cases x with
  | start id key => exact absurd (fetches_drop b id) hx
  | drop id => exact absurd (fetches_drop b id) hx
  | supply id result =>
    refine absurd ?_ hx
    simp only [ShareStep.apply, ShareBoard.supply]
    split <;> rfl
  | poll id =>
    cases hr : b.reads.lookup id with
    | none => exact absurd (by simp [ShareStep.apply, ShareBoard.poll, hr]) hx
    | some r =>
      refine ⟨id, r, rfl, hr, ?_⟩
      cases ht : b.ticket? r with
      | none =>
        refine absurd ?_ hx
        simp only [ShareStep.apply, ShareBoard.poll, hr, pollRead]
        cases hs : r.stage with
        | idle | leading m | following m => simp [ticket?, hs] at ht
        | alone =>
          simp only [ShareBoard.readAlone]
          split <;> rfl
        | done result => rfl
      | some ticket =>
        cases ticket with
        | follower n =>
          obtain ⟨l, hd, hf⟩ := h.followed hr ht
          cases hf with
          | waits _ same _ | takes _ _ same _ => exact absurd same hx
          | fetches left _ _ => exact .inr ⟨l, n, rfl, hd, left⟩
        | leader n =>
          cases hs : r.stage with
          | idle =>
            refine .inl ⟨n, ?_⟩
            simp only [ticket?, hs, Option.some.injEq] at ht
            simp [events, hr, departures, hs, ht]
          | leading m =>
            refine absurd ?_ hx
            simp only [ShareStep.apply, ShareBoard.poll, hr, pollRead, hs, fetches_lead]
          | following m | alone | done result => simp [ticket?, hs] at ht

/-- An entry that a step takes away is the one of a leader that ends in this step. -/
theorem Sound.removal {past : List (FlightEvent ρ)} (h : Sound past b) {x : ShareStep ρ}
    (hk : b.group.inflight.lookup key = some n)
    (hx : (x.apply b).group.inflight.lookup key ≠ some n) :
    ∃ id e, b.Leads id key n ∧ .ended id n e ∈ b.events x := by
  obtain ⟨id, hl⟩ := (h.entry key n).mp hk
  obtain ⟨hd, hrun⟩ := h.leading hl
  have h' := h.step x
  have hd' : .departed id key n ∈ b.events x ++ past := List.mem_append_right _ hd
  obtain ⟨e, he⟩ : ∃ e, (x.apply b).group.flights[n]? = some e :=
    ⟨_, List.getElem?_eq_getElem (h'.known hd')⟩
  -- the flight does not run any more, for else its leader would be alive
  have hne : e ≠ .running := by
    rintro rfl
    exact hx ((h'.entry key n).mpr ⟨id, h'.running hd' he⟩)
  have hended := h'.fate.mpr ⟨⟨key, hd'⟩, he, hne⟩
  refine ⟨id, e, hl, (List.mem_append.mp hended).resolve_right ?_⟩
  intro hpast
  have hold := (h.fate.mp hpast).2.1
  rw [hrun] at hold
  exact hne (Option.some.inj hold).symm

/-- Whatever the interleaving of callers, each key has one flight at a time, and its followers keep
to it. -/
theorem single_flight (steps : List (ShareStep ρ)) : SingleFlight steps := by
  have h := sound_after steps
  refine ⟨h.entry, h.leader_unique, fun x key n => h.removal, h.sole, ?_, ?_, ?_,
    fun x => h.fetch, ?_⟩
  · intro id id' key n e e' hd he he'
    obtain ⟨⟨key', hd'⟩, hn, -⟩ := h.fate.mp he
    have hn' := (h.fate.mp he').2.1
    rw [hn] at hn'
    exact ⟨(h.sole hd hd').1, (Option.some.inj hn').symm⟩
  · exact fun id r n hr ht => h.followed hr ht
  · rintro id r result hr (⟨n, ht⟩ | hs) hsup
    · exact poll_of_leader hr ht hsup
    · simp [after, ShareStep.apply, poll, hr, pollRead, hs, readAlone, hsup, lookup_put]
  · intro hreads
    -- an entry would have a leader among the calls
    refine List.eq_nil_iff_forall_not_mem.mpr fun e he => ?_
    cases hk : (after steps).group.inflight.lookup e.1 with
    | none => exact absurd he (by simpa using (List.lookup_eq_none_iff.mp hk e))
    | some n =>
      obtain ⟨id, r, hr, -⟩ := (h.entry e.1 n).mp hk
      simp [hreads] at hr

/-- Two callers of a key and one fetch: the second caller returns what the first one got. -/
example :
    let b := after [.poll "b", .poll "a", .supply "a" 7, .poll "b", .poll "a", .start "b" "k",
      .start "a" "k"]
    (b.fetches, b.reads.map fun r => outcome r.2, b.group.inflight) =
      (1, [some 7, some 7], []) := by
  decide

end ShareBoard

end QueryKit
