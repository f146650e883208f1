import QueryKit.Proofs.Key.Lookup
import QueryKit.Proofs.Params.Extend
import QueryKit.Proofs.Placeholder.Scan
import Mathlib.Data.List.Dedup

/-!
# A list and a map in one

- `Edit`: the operations on an accumulator. What `extend` adds is built by operations as well.
- `Edit.bindings`: the bindings that an operation makes. Those of an added accumulator stand where it
  is added.
- `applyEdits_eq`: operations come to their bindings, one after the other.
- `named_bindAll`, `positional_bindAll`, `names_perm`, `size_eq`: what is read from an accumulator in
  terms of its bindings.
- `keys_prefix`: an entry never moves.
- `build_reflects`: what is read from an accumulator that operations have built.
-/

namespace QueryKit

namespace Params

/-- An operation on an accumulator. -/
inductive Edit where
  | push (v : Value)
  | pushTyped (v : Value) (type : ParamType)
  | set (name : String) (v : Value)
  | setParam (name : String) (p : Param)
  | extend (edits : List Edit)

mutual

/-- The accumulator behind an operation. -/
def Edit.apply (ps : Params) : Edit → Params
  | .push v => ps.push (.ofValue v)
  | .pushTyped v type => ps.push ⟨v, type⟩
  | .set name v => ps.set name (.ofValue v)
  | .setParam name p => ps.set name p
  | .extend edits => ps.extend (applyEdits .empty edits)

/-- The accumulator behind a sequence of operations. -/
def applyEdits (ps : Params) : List Edit → Params
  | [] => ps
  | e :: es => applyEdits (e.apply ps) es

end

/-- The accumulator that operations build. -/
def build (es : List Edit) : Params :=
  applyEdits .empty es

mutual

/-- The bindings that an operation makes. -/
def Edit.bindings : Edit → List Binding
  | .push v => [⟨.positional, .ofValue v⟩]
  | .pushTyped v type => [⟨.positional, ⟨v, type⟩⟩]
  | .set name v => [⟨.named name, .ofValue v⟩]
  | .setParam name p => [⟨.named name, p⟩]
  | .extend edits => editBindings edits

/-- The bindings that a sequence of operations makes, in their order. -/
def editBindings : List Edit → List Binding
  | [] => []
  | e :: es => e.bindings ++ editBindings es

end

/-! ## Bindings of names -/

/-- The name that a binding sets, without a colon in front of it. -/
def boundName (b : Binding) : Option String :=
  match b.key with
  | .positional => none
  | .named name => some (bareName name)

/-- The values that bindings give to a name. -/
def assigned (n : String) (bs : List Binding) : List Param :=
  (bs.filter fun b => boundName b = some n).map Binding.param

variable {ps : Params} {n m : String} {p : Param} {b : Binding} {bs cs : List Binding}
  {es : List (ParamKey × Param)}

theorem assigned_append : assigned n (bs ++ cs) = assigned n bs ++ assigned n cs := by
  simp [assigned]

/-! ## Setting a name -/

/-- A name keeps its place, and a new one comes to the end. -/
theorem setEntry_keys : (setEntry n p es).map Prod.fst =
    if .named n ∈ es.map Prod.fst then es.map Prod.fst else es.map Prod.fst ++ [.named n] := by
  induction es with
  | nil => rfl
  | cons e es ih =>
    obtain ⟨k, q⟩ := e
    by_cases hk : k = .named n
    · simp [setEntry, hk]
    · rw [setEntry, if_neg hk, List.map_cons, ih]
      simp only [List.map_cons, List.mem_cons, Ne.symm hk, false_or]
      split <;> rfl

theorem lookup_setEntry : (setEntry n p es).lookup (.named m) =
    if m = n then some p else es.lookup (.named m) := by
  induction es with
  | nil => simp [setEntry, lookup_cons_if]
  | cons e es ih =>
    obtain ⟨k, q⟩ := e
    by_cases hk : k = .named n
    · rw [setEntry, if_pos hk, lookup_cons_if, lookup_cons_if, hk]
      by_cases hm : m = n <;> simp [hm]
    · rw [setEntry, if_neg hk, lookup_cons_if, lookup_cons_if, ih]
      by_cases hm : .named m = k
      · have hne : m ≠ n := fun h => hk (h ▸ hm.symm)
        simp [hm, hne]
      · simp [hm]

theorem keys_bind (ps : Params) (b : Binding) : (ps.bind b.key b.param).keys = ps.keys ∨
    ∃ k, (ps.bind b.key b.param).keys = ps.keys ++ [k] := by
  obtain ⟨k, p⟩ := b
  cases k with
  | positional => exact .inr ⟨_, List.map_append⟩
  | named name =>
    by_cases h : .named (bareName name) ∈ ps.keys
    · exact .inl (setEntry_keys.trans (if_pos h))
    · exact .inr ⟨_, setEntry_keys.trans (if_neg h)⟩

/-- No binding moves an entry. -/
theorem keys_prefix : ps.keys <+: (ps.bindAll bs).keys := by
  induction bs generalizing ps with
  | nil => exact List.prefix_rfl
  | cons b bs ih =>
    refine List.IsPrefix.trans ?_ ih
    rcases keys_bind ps b with h | ⟨k, h⟩
    · exact h ▸ List.prefix_rfl
    · exact h ▸ List.prefix_append _ _

/-! ## What is read -/

theorem named_bind : (ps.bind b.key b.param).named n =
    if boundName b = some (bareName n) then some b.param else ps.named n := by
  obtain ⟨k, p⟩ := b
  cases k with
  | positional =>
    have hnone : boundName ⟨.positional, p⟩ ≠ some (bareName n) := nofun
    rw [if_neg hnone, named, bind, push, List.lookup_append, lookup_cons_if]
    simp [named]
  | named name =>
    have hname : boundName ⟨.named name, p⟩ = some (bareName n) ↔ bareName n = bareName name := by
      rw [boundName, Option.some.injEq, eq_comm]
    simp only [hname]
    exact lookup_setEntry

/-- The last binding of a name counts. -/
theorem named_bindAll (ps : Params) : (ps.bindAll bs).named n =
    ((assigned (bareName n) bs).getLast?).or (ps.named n) := by
  induction bs generalizing ps with
  | nil => rfl
  | cons b bs ih =>
    have hrest := ih (ps.bind b.key b.param)
    rw [named_bind] at hrest
    rw [← List.singleton_append, assigned_append, List.getLast?_append]
    refine hrest.trans ?_
    by_cases h : boundName b = some (bareName n) <;> simp [assigned, h]

theorem mem_keys_bindAll (ps : Params) : .named n ∈ (ps.bindAll bs).keys ↔
    .named n ∈ ps.keys ∨ n ∈ bs.filterMap boundName := by
  induction bs generalizing ps with
  | nil => simp [bindAll]
  | cons b bs ih =>
    have hrest := ih (ps.bind b.key b.param)
    have hbind : .named n ∈ (ps.bind b.key b.param).keys ↔
        .named n ∈ ps.keys ∨ boundName b = some n := by
      obtain ⟨k, p⟩ := b
      cases k with
      | positional => simp [bind, push, keys, boundName]
      | named name =>
        refine mem_setEntry_keys.trans ?_
        rw [or_comm, boundName, ParamKey.named.injEq, Option.some.injEq, eq_comm (a := n)]
        rfl
    rw [hbind, or_assoc] at hrest
    refine hrest.trans (or_congr_right ?_)
    rw [List.mem_filterMap, List.mem_filterMap, List.exists_mem_cons_iff]

theorem Regular.names_nodup (h : ps.Regular) : ps.names.Nodup := by
  unfold names keys
  rw [List.filterMap_map]
  refine List.Pairwise.filterMap _ ?_ h.once
  intro e f hef n hn m hm hnm
  subst hnm
  obtain ⟨k, p⟩ := e
  obtain ⟨l, q⟩ := f
  cases k with
  | positional => cases hn
  | named name =>
    cases l with
    | positional => cases hm
    | named name' =>
      cases hn
      cases hm
      exact hef _ rfl rfl

/-- Every entry has a name or is positional. -/
theorem size_eq (ps : Params) : ps.size = ps.positional.length + ps.names.length := by
  obtain ⟨es⟩ := ps
  unfold size positional names keys
  induction es with
  | nil => rfl
  | cons e es ih =>
    obtain ⟨k, p⟩ := e
    cases k <;> simp at ih ⊢ <;> omega

/-- The names of the entries are those that were set, each once. -/
theorem names_perm (hbs : ∀ b ∈ bs, Plain b) :
    (ofBindings bs).names.Perm (bs.filterMap boundName).dedup := by
  have hregular : (ofBindings bs).Regular := Regular.empty.bindAll hbs
  refine (List.perm_ext_iff_of_nodup hregular.names_nodup (List.nodup_dedup _)).mpr fun n => ?_
  rw [mem_names, List.mem_dedup, ofBindings, mem_keys_bindAll]
  exact or_iff_right (List.not_mem_nil)

/-! ## Operations -/

mutual

theorem Edit.apply_eq (ps : Params) : ∀ e : Edit, (∀ b ∈ e.bindings, Plain b) →
    e.apply ps = ps.bindAll e.bindings
  | .push _, _ | .pushTyped _ _, _ | .set _ _, _ | .setParam _ _, _ => rfl
  | .extend es, h => by
    rw [Edit.apply, Edit.bindings, applyEdits_eq .empty es h]
    exact extend_ofBindings h ps

/-- Operations come to their bindings. -/
theorem applyEdits_eq (ps : Params) : ∀ es : List Edit, (∀ b ∈ editBindings es, Plain b) →
    applyEdits ps es = ps.bindAll (editBindings es)
  | [], _ => rfl
  | e :: es, h => by
    rw [editBindings, List.forall_mem_append] at h
    rw [applyEdits, e.apply_eq ps h.1, applyEdits_eq _ es h.2, editBindings, bindAll_append]

end

theorem build_eq {es : List Edit} (hes : ∀ b ∈ editBindings es, Plain b) :
    build es = ofBindings (editBindings es) :=
  applyEdits_eq .empty es hes

theorem applyEdits_append (ps : Params) (es fs : List Edit) :
    applyEdits ps (es ++ fs) = applyEdits (applyEdits ps es) fs := by
  induction es generalizing ps with
  | nil => rfl
  | cons e es ih => exact ih (e.apply ps)

/-- What is read from an accumulator that bindings have built. -/
structure Reflects (ps : Params) (bs : List Binding) : Prop where
  /-- Every name has one entry. -/
  distinct : ps.names.Nodup
  /-- The positional values are those that were pushed. -/
  pushed : ps.positional = positionals bs
  /-- The last binding of a name counts, whether or not a colon stands in front of it. -/
  last : ∀ n, ps.named n = (assigned (bareName n) bs).getLast?
  /-- There is an entry for each pushed value and for each name. -/
  length : ps.size = (positionals bs).length + (bs.filterMap boundName).dedup.length

theorem reflects_ofBindings (hbs : ∀ b ∈ bs, Plain b) : (ofBindings bs).Reflects bs := by
  have hpushed : (ofBindings bs).positional = positionals bs := positional_bindAll .empty bs
  refine ⟨(Regular.empty.bindAll hbs).names_nodup, hpushed, fun n => ?_, ?_⟩
  · rw [ofBindings, named_bindAll]
    exact Option.or_none
  · rw [size_eq, hpushed, (names_perm hbs).length_eq]

/-- A colon in front of a name does not count. -/
theorem bareName_colon (h : ¬[':'] <+: n.toList) : bareName (":" ++ n) = bareName n := by
  have hself : bareName n = n := by
    unfold bareName
    split
    · next r hr => exact absurd ⟨r, hr.symm⟩ h
    · rfl
  rw [hself]
  unfold bareName
  rw [String.toList_append]
  exact String.ofList_toList

/-- An accumulator that operations have built is a list and a map: it is read as its bindings say, no
operation moves an entry, and binding a name again leaves all entries in their places. Such
accumulators extend one another as lists do. -/
theorem build_reflects (es fs gs : List Edit) (hes : ∀ b ∈ editBindings es, Plain b)
    (hfs : ∀ b ∈ editBindings fs, Plain b) (hgs : ∀ b ∈ editBindings gs, Plain b) :
    (build es).Reflects (editBindings es) ∧
    (∀ n, ¬[':'] <+: n.toList → (build es).named (":" ++ n) = (build es).named n) ∧
    (build es).keys <+: (build (es ++ fs)).keys ∧
    (∀ n p, .named (bareName n) ∈ (build es).keys → ((build es).set n p).keys = (build es).keys) ∧
    ((build es).extend (build fs)).extend (build gs) =
      (build es).extend ((build fs).extend (build gs)) ∧
    Params.empty.extend (build es) = build es ∧ (build es).extend .empty = build es := by
  refine ⟨?_, fun n hn => ?_, ?_, fun n p hn => ?_, ?_, ?_, rfl⟩
  · rw [build_eq hes]
    exact reflects_ofBindings hes
  · rw [named, named, bareName_colon hn]
  · rw [build, build, applyEdits_append, applyEdits_eq _ fs hfs]
    exact keys_prefix
  · exact setEntry_keys.trans (if_pos hn)
  · have hplain : ∀ b ∈ editBindings fs ++ editBindings gs, Plain b :=
      List.forall_mem_append.mpr ⟨hfs, hgs⟩
    have hboth : (build fs).extend (build gs) = ofBindings (editBindings fs ++ editBindings gs) := by
      rw [build_eq hfs, build_eq hgs, extend_ofBindings hgs, ofBindings, ofBindings, bindAll_append]
    rw [hboth, extend_ofBindings hplain, bindAll_append, build_eq hfs, build_eq hgs,
      extend_ofBindings hfs, extend_ofBindings hgs]
  · rw [build_eq hes, extend_ofBindings hes]
    rfl

/-- A filter with a name that the accumulators added to it set again. -/
def filterEdits : List Edit :=
  [.set ":x" (.int32 1), .push (.int32 10),
    .extend [.set "x" (.int32 2), .pushTyped (.int64 20) .str, .extend [.push .null, .set "y" .null]],
    .setParam "y" ⟨.int32 3, .str⟩]

theorem filterEdits_reflects :
    (build filterEdits).positional = [.ofValue (.int32 10), ⟨.int64 20, .str⟩, .ofValue .null] ∧
    (build filterEdits).named "x" = some (.ofValue (.int32 2)) ∧
    (build filterEdits).named ":y" = some ⟨.int32 3, .str⟩ ∧
    (build filterEdits).size = 5 ∧ (build filterEdits).names.Nodup := by
  have hplain : ∀ b ∈ editBindings filterEdits, Plain b := by
    have hnames : ∀ n ∈ [":x", "x", "y"], ¬Doubled n := by decide
    intro b hb n hn
    refine hnames n ?_
    simp only [filterEdits, editBindings, Edit.bindings, List.append_nil, List.cons_append,
      List.nil_append, List.mem_cons, List.not_mem_nil, or_false] at hb
    rcases hb with rfl | rfl | rfl | rfl | rfl | rfl | rfl <;> cases hn <;> decide
  obtain ⟨⟨hdistinct, hpushed, hlast, hlength⟩, -⟩ :=
    build_reflects filterEdits [] [] hplain (List.forall_mem_nil _) (List.forall_mem_nil _)
  exact ⟨hpushed, hlast "x", hlast ":y", hlength, hdistinct⟩

end Params

end QueryKit
