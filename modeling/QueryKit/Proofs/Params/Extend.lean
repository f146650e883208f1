import QueryKit.Params

/-!
# Accumulators extend one another

Positional entries are appended, and a named one is set in its place. So adding bindings one by one
and adding the accumulator that the bindings build are the same, which is what lets a part of a
statement be compiled on its own.

- `extend_setEntry`: setting a name before or after an accumulator is added makes no difference.
- `Params.Regular`: every name occurs once, without a colon in front of it. Setting names one by one
  leads to such accumulators (`Regular.bindAll`).
- `extend_bindAll`, `extend_ofBindings`, `extend_assoc`: extending is an action of bindings.

A name with two colons in front of it loses one when it is set and the other when it is set again.
Such names are left out (`Doubled`).
-/

namespace QueryKit

namespace Params

/-- Two colons stand in front of a name. -/
def Doubled (name : String) : Prop :=
  [':', ':'] <+: name.toList

instance (name : String) : Decidable (Doubled name) :=
  inferInstanceAs (Decidable (_ <+: _))

/-- A name loses its colon once. -/
theorem bareName_bareName {name : String} (h : ¬Doubled name) :
    bareName (bareName name) = bareName name := by
  unfold Doubled at h
  rw [bareName.eq_def name]
  split
  · next r hr =>
    rw [hr] at h
    unfold bareName
    split
    · next r' hr' =>
      rw [String.toList_ofList] at hr'
      exact absurd (by simp [hr']) h
    · rfl
  · next hname =>
    unfold bareName
    split
    · next r hr => exact absurd hr (hname r)
    · rfl

/-- The keys of the entries, in bind order. -/
def keys (ps : Params) : List ParamKey :=
  ps.entries.map Prod.fst

/-- The names of the entries, in bind order. -/
def names (ps : Params) : List String :=
  ps.keys.filterMap fun
    | .positional => none
    | .named n => some n

theorem mem_names {ps : Params} {n : String} : n ∈ ps.names ↔ .named n ∈ ps.keys := by
  unfold names
  rw [List.mem_filterMap]
  constructor
  · rintro ⟨k, hk, hn⟩
    cases k with
    | positional => cases hn
    | named m =>
      cases hn
      exact hk
  · intro h
    exact ⟨_, h, rfl⟩

/-! ## Setting a name -/

section SetEntry

variable {n m : String} {p q : Param} {k : ParamKey}

theorem mem_setEntry_keys {es : List (ParamKey × Param)} :
    k ∈ (setEntry n p es).map Prod.fst ↔ k = .named n ∨ k ∈ es.map Prod.fst := by
  induction es with
  | nil => simp [setEntry]
  | cons e es ih =>
    obtain ⟨l, r⟩ := e
    unfold setEntry
    split
    · next hl =>
      subst hl
      simp
    · rw [List.map_cons, List.map_cons, List.mem_cons, List.mem_cons, ih]
      exact or_left_comm

theorem setEntry_setEntry (es : List (ParamKey × Param)) :
    setEntry n q (setEntry n p es) = setEntry n q es := by
  induction es with
  | nil => simp [setEntry]
  | cons e es ih =>
    obtain ⟨l, r⟩ := e
    by_cases hl : l = .named n
    · simp [setEntry, hl]
    · simp [setEntry, hl, ih]

/-- Entries behind a name that is set already do not matter. -/
theorem setEntry_append {es fs : List (ParamKey × Param)} (hn : .named n ∈ es.map Prod.fst) :
    setEntry n p (es ++ fs) = setEntry n p es ++ fs := by
  induction es with
  | nil => cases hn
  | cons e es ih =>
    obtain ⟨l, r⟩ := e
    by_cases hl : l = .named n
    · simp [setEntry, hl]
    · have hrest : .named n ∈ es.map Prod.fst := by
        rcases List.mem_cons.mp hn with he | hrest
        · exact absurd he.symm hl
        · exact hrest
      simp [setEntry, hl, ih hrest]

/-- A name that is set already can be set before or after another one. If it were not set, the two
would be appended in the order in which they are set. -/
theorem setEntry_comm {es : List (ParamKey × Param)} (hne : n ≠ m)
    (hn : .named n ∈ es.map Prod.fst) :
    setEntry n p (setEntry m q es) = setEntry m q (setEntry n p es) := by
  induction es with
  | nil => cases hn
  | cons e es ih =>
    obtain ⟨l, r⟩ := e
    by_cases hl : l = .named n
    · subst hl
      have hm : ParamKey.named n ≠ .named m := fun he => hne (ParamKey.named.inj he)
      simp [setEntry, hm]
    · have hrest : .named n ∈ es.map Prod.fst := by
        rcases List.mem_cons.mp hn with he | hrest
        · exact absurd he.symm hl
        · exact hrest
      by_cases hm : l = .named m
      · subst hm
        simp [setEntry, hl]
      · simp [setEntry, hl, hm, ih hrest]

end SetEntry

/-! ## Adding bindings -/

section BindAll

variable {ps : Params} {n : String} {p q : Param} {b : Binding} {bs cs : List Binding}

theorem bindAll_append : ps.bindAll (bs ++ cs) = (ps.bindAll bs).bindAll cs :=
  List.foldl_append

/-- A binding sets another name than `n`, or none. -/
def Spares (n : String) (b : Binding) : Prop :=
  ∀ m, b.key = .named m → bareName m ≠ n

/-- A name that is set already can be set before or after a binding that spares it. -/
theorem setEntry_bind (hn : .named n ∈ ps.keys) (hb : Spares n b) :
    (⟨setEntry n p (ps.bind b.key b.param).entries⟩ : Params) =
      (⟨setEntry n p ps.entries⟩ : Params).bind b.key b.param := by
  obtain ⟨k, r⟩ := b
  cases k with
  | positional => exact congrArg Params.mk (setEntry_append hn)
  | named m => exact congrArg Params.mk (setEntry_comm (hb m rfl).symm hn)

theorem mem_keys_bind {k : ParamKey} (hk : k ∈ ps.keys) : k ∈ (ps.bind b.key b.param).keys := by
  obtain ⟨l, r⟩ := b
  cases l with
  | positional =>
    change k ∈ (ps.entries ++ [_]).map Prod.fst
    rw [List.map_append]
    exact List.mem_append_left _ hk
  | named m => exact mem_setEntry_keys.mpr (.inr hk)

theorem setEntry_bindAll (hn : .named n ∈ ps.keys) (hbs : ∀ b ∈ bs, Spares n b) :
    (⟨setEntry n p (ps.bindAll bs).entries⟩ : Params) =
      (⟨setEntry n p ps.entries⟩ : Params).bindAll bs := by
  induction bs generalizing ps with
  | nil => rfl
  | cons b bs ih =>
    obtain ⟨hb, hbs⟩ := List.forall_mem_cons.mp hbs
    have hrest := ih (mem_keys_bind (b := b) hn) hbs
    rw [setEntry_bind hn hb] at hrest
    exact hrest

end BindAll

/-! ## Regular accumulators -/

/-- Every name occurs once, without a colon in front of it. -/
structure Regular (ps : Params) : Prop where
  once : ps.entries.Pairwise fun e f => ∀ n, e.1 = .named n → f.1 ≠ .named n
  bare : ∀ n, .named n ∈ ps.keys → bareName n = n

/-- A binding whose name has not two colons in front of it. -/
def Plain (b : Binding) : Prop :=
  ∀ n, b.key = .named n → ¬Doubled n

theorem pairwise_setEntry {n : String} {p : Param} : ∀ {es : List (ParamKey × Param)},
    es.Pairwise (fun e f => ∀ n, e.1 = .named n → f.1 ≠ .named n) →
    (setEntry n p es).Pairwise fun e f => ∀ n, e.1 = .named n → f.1 ≠ .named n
  | [], _ => List.pairwise_singleton _ _
  | (k, q) :: es, h => by
    obtain ⟨hhead, htail⟩ := List.pairwise_cons.mp h
    unfold setEntry
    split
    · exact List.pairwise_cons.mpr ⟨hhead, htail⟩
    · next hk =>
      refine List.pairwise_cons.mpr ⟨fun f hf m hm hfm => ?_, pairwise_setEntry htail⟩
      -- The entry is the one that was set, or it was there before.
      have hmem : .named m ∈ (setEntry n p es).map Prod.fst := hfm ▸ List.mem_map_of_mem hf
      rcases mem_setEntry_keys.mp hmem with he | hold
      · exact hk (hm.trans he)
      · obtain ⟨f', hf', hkey⟩ := List.mem_map.mp hold
        exact hhead f' hf' m hm hkey

namespace Regular

variable {ps : Params}

theorem empty : Regular .empty :=
  ⟨.nil, nofun⟩

theorem bind (h : ps.Regular) {b : Binding} (hb : Plain b) : (ps.bind b.key b.param).Regular := by
  obtain ⟨k, p⟩ := b
  cases k with
  | positional =>
    refine ⟨List.pairwise_append.mpr ⟨h.once, List.pairwise_singleton _ _, ?_⟩, fun n hn => ?_⟩
    · intro e _ f hf n _
      rw [List.mem_singleton.mp hf]
      exact nofun
    · exact h.bare n (by simpa [Params.bind, push, keys] using hn)
  | named m =>
    refine ⟨pairwise_setEntry h.once, fun n hn => ?_⟩
    rcases mem_setEntry_keys.mp hn with he | hold
    · rw [ParamKey.named.inj he]
      exact bareName_bareName (hb m rfl)
    · exact h.bare n hold

theorem bindAll {bs : List Binding} (h : ps.Regular) (hbs : ∀ b ∈ bs, Plain b) :
    (ps.bindAll bs).Regular := by
  induction bs generalizing ps with
  | nil => exact h
  | cons b bs ih =>
    obtain ⟨hb, hbs⟩ := List.forall_mem_cons.mp hbs
    exact ih (h.bind hb) hbs

end Regular

/-! ## Extending -/

/-- Setting a name in what is added is setting it afterwards. -/
theorem extend_setEntry {n : String} {p : Param} (hn : bareName n = n) :
    ∀ (ps : Params) {es : List (ParamKey × Param)}, (⟨es⟩ : Params).Regular →
      ps.extend ⟨setEntry n p es⟩ = ⟨setEntry n p (ps.extend ⟨es⟩).entries⟩
  | ps, [], _ => by
    change ps.set n p = _
    rw [set, hn]
    rfl
  | ps, (k, q) :: es, h => by
    obtain ⟨hhead, htail⟩ := List.pairwise_cons.mp h.once
    have hregular : (⟨es⟩ : Params).Regular :=
      ⟨htail, fun m hm => h.bare m (List.mem_cons_of_mem k hm)⟩
    by_cases hk : k = .named n
    · subst hk
      -- The entry of the name is replaced. The entries behind it spare the name.
      have hspared : ∀ b ∈ (⟨es⟩ : Params).bindings, Spares n b := by
        intro b hb m hm
        obtain ⟨e, he, rfl⟩ := List.mem_map.mp hb
        have hmem : .named m ∈ (⟨es⟩ : Params).keys := hm ▸ List.mem_map_of_mem he
        rw [hregular.bare m hmem]
        rintro rfl
        exact hhead e he m rfl hm
      have hset : .named n ∈ (ps.set n q).keys :=
        mem_setEntry_keys.mpr (.inl (congrArg ParamKey.named hn.symm))
      have hafter := setEntry_bindAll (p := p) hset hspared
      have htwice : (⟨setEntry n p (ps.set n q).entries⟩ : Params) = ps.set n p := by
        simp only [set, hn]
        rw [setEntry_setEntry]
      rw [htwice] at hafter
      rw [setEntry, if_pos rfl]
      exact hafter.symm
    · have hrest := extend_setEntry (p := p) hn (ps.bind k q) hregular
      rw [setEntry, if_neg hk]
      exact hrest

/-- One more binding in what is added is one more binding afterwards. -/
theorem extend_bind {qs : Params} {b : Binding} (hqs : qs.Regular) (hb : Plain b) (ps : Params) :
    ps.extend (qs.bind b.key b.param) = (ps.extend qs).bind b.key b.param := by
  obtain ⟨k, p⟩ := b
  cases k with
  | positional =>
    change ps.bindAll (bindings ⟨qs.entries ++ [(ParamKey.positional, p)]⟩) = _
    rw [bindings, List.map_append, bindAll_append]
    rfl
  | named n => exact extend_setEntry (bareName_bareName (hb n rfl)) ps hqs

/-- Bindings in what is added are bindings afterwards. -/
theorem extend_bindAll {qs : Params} {bs : List Binding} (hqs : qs.Regular)
    (hbs : ∀ b ∈ bs, Plain b) (ps : Params) :
    ps.extend (qs.bindAll bs) = (ps.extend qs).bindAll bs := by
  induction bs generalizing qs with
  | nil => rfl
  | cons b bs ih =>
    obtain ⟨hb, hbs⟩ := List.forall_mem_cons.mp hbs
    have hrest := ih (hqs.bind hb) hbs
    rw [extend_bind hqs hb] at hrest
    exact hrest

/-- Adding the accumulator that bindings build is adding the bindings. -/
theorem extend_ofBindings {bs : List Binding} (hbs : ∀ b ∈ bs, Plain b) (ps : Params) :
    ps.extend (ofBindings bs) = ps.bindAll bs :=
  extend_bindAll .empty hbs ps

theorem extend_assoc {qs rs : Params} (hqs : qs.Regular) (hrs : ∀ b ∈ rs.bindings, Plain b)
    (ps : Params) : ps.extend (qs.extend rs) = (ps.extend qs).extend rs :=
  extend_bindAll hqs hrs ps

end Params

end QueryKit
