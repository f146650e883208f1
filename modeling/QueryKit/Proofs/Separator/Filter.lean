import QueryKit.Proofs.Separator.Verb

/-!
# Statements of filters

- `applied`: the verbs that a filter applies, with their values.
- `unguarded`: the texts of a filter, and of the filters within it, that are printed without having
  been guarded.
- `search_unbroken`: a filter whose unguarded texts hold no separator makes a statement without one.
- `orderKeys_printed`: the keys of an order list are such texts.
- `namedColumns`: the columns of a condition are strings or raw text, which the guard looks at.
- `conditions_unbroken`: a filter with such conditions makes a statement without a separator,
  whatever their values hold.
-/

namespace QueryKit

namespace Search

/-! ## The verbs that a filter applies -/

/-- A verb with the value that it is applied to. -/
structure Application where
  verb : FilterVerb
  value : Json

/-- The verbs that an entry of a filter applies. -/
def applications (entry : String × Json) : List Application :=
  match Text.dropTextEnd ['[', ']'] entry.1.toList with
  | some name =>
    match FilterVerb.parse (String.ofList name), entry.2 with
    | .ok verb, .array items => items.map (Application.mk verb)
    | .ok verb, value => [⟨verb, value⟩]
    | .error _, _ => []
  | none =>
    match FilterVerb.parse entry.1 with
    | .ok verb => [⟨verb, entry.2⟩]
    | .error _ => []

/-- The verbs that a filter applies. -/
def applied : Json → List Application
  | .object entries => entries.flatMap applications
  | _ => []

/-- The texts of a filter that are printed and not guarded, without those of the filters within
it. -/
def unguardedHere (filter : Json) : List String :=
  (applied filter).flatMap fun a => unguardedValue a.verb a.value

/-- The texts of an application that are printed and not guarded. -/
def Application.unguarded (a : Application) : List String :=
  unguardedValue a.verb a.value ++ (nestedFilters a.value).flatMap unguardedHere

/-- The texts of a filter that are printed and not guarded, with those of the filters within it. -/
def unguarded (filter : Json) : List String :=
  (applied filter).flatMap Application.unguarded

/-! ### Filters within the values -/

theorem nestedFilters_application {entry : String × Json} {a : Application}
    (ha : a ∈ applications entry) : nestedFilters a.value ⊆ nestedFilters entry.2 := by
  unfold applications at ha
  split at ha
  · split at ha
    · next items _ hitems =>
      obtain ⟨j, hj, rfl⟩ := List.mem_map.mp ha
      rw [hitems]
      exact nestedFilters_item hj
    · rw [List.mem_singleton.mp ha]
      exact List.Subset.refl _
    · cases ha
  · split at ha
    · rw [List.mem_singleton.mp ha]
      exact List.Subset.refl _
    · cases ha

theorem nestedFilters_applied {filter : Json} {a : Application} (ha : a ∈ applied filter) :
    nestedFilters a.value ⊆ nestedFilters filter := by
  cases filter with
  | object entries =>
    obtain ⟨entry, hentry, ha⟩ := List.mem_flatMap.mp ha
    exact List.Subset.trans (nestedFilters_application ha)
      (List.subset_append_of_subset_right _ (nestedFilters_entry hentry))
  | _ => cases ha

/-- What is not guarded in a filter within a value is not guarded in the value. -/
theorem unguarded_subset {a : Application} {filter : Json} (h : filter ∈ nestedFilters a.value) :
    unguarded filter ⊆ a.unguarded := by
  intro t ht
  obtain ⟨b, hb, ht⟩ := List.mem_flatMap.mp ht
  refine List.mem_append_right _ (List.mem_flatMap.mpr ?_)
  rcases List.mem_append.mp ht with ht | ht
  · exact ⟨filter, h, List.mem_flatMap.mpr ⟨b, hb, ht⟩⟩
  · obtain ⟨f, hf, ht⟩ := List.mem_flatMap.mp ht
    exact ⟨f, nestedFilters_trans h (nestedFilters_applied hb hf), ht⟩

/-! ## Whole filters -/

variable {c : Compiler} {sub : Json → Result Query}

/-- What every verb of an entry keeps, the entry keeps. -/
theorem applyEntry_keeps {P : Query → Prop} {entry : String × Json} {q q' : Query}
    (hstep : ∀ a ∈ applications entry, ∀ q q', P q → applyVerb sub q a.verb a.value = .ok q' → P q')
    (hq : P q) (h : applyEntry sub q entry = .ok q') : P q' := by
  unfold applyEntry at h
  unfold applications at hstep
  split at h
  · next name hname =>
    obtain ⟨verb, hverb, h⟩ := Result.bind_ok h
    simp only [hname, hverb] at hstep
    split at h
    · next items hitems =>
      rw [hitems] at hstep
      exact Result.foldlM_keeps (fun j hj => hstep ⟨verb, j⟩ (List.mem_map_of_mem hj)) hq h
    · next hitems =>
      split at hstep
      · next items hverb' heq => exact absurd heq (hitems items)
      · next heq _ =>
        cases heq
        exact hstep _ List.mem_cons_self q q' hq h
      · next heq => cases heq
  · next hname =>
    obtain ⟨verb, hverb, h⟩ := Result.bind_ok h
    simp only [hname, hverb] at hstep
    exact hstep _ List.mem_cons_self q q' hq h

/-- A filter that is applied is null or an object. -/
theorem searchWithin_ok {depth : Nat} {filter : Json} {q q' : Query}
    (h : searchWithin depth q filter = .ok q') : filter = .null ∧ q' = q ∨
      ∃ entries inner, filter = .object entries ∧ depth = inner + 1 ∧
        applyEntries (searchWithin inner .empty) q entries = .ok q' := by
  unfold searchWithin at h
  split at h
  · cases h
    exact .inl ⟨rfl, rfl⟩
  · next entries inner => exact .inr ⟨entries, inner, rfl, rfl, h⟩
  · cases h

/-- A filter keeps a query fit if its unguarded texts hold no separator. -/
theorem searchWithin_fits {depth : Nat} {filter : Json} {q q' : Query}
    (htexts : ∀ t ∈ unguarded filter, Unbroken t) (hq : q.Fits c (separatorLaw c.dialect))
    (h : searchWithin depth q filter = .ok q') : q'.Fits c (separatorLaw c.dialect) := by
  -- By induction on the depth, for the filters that stand within a value.
  induction depth generalizing filter q q' with
  | zero =>
    obtain ⟨-, rfl⟩ | ⟨_, _, -, hdepth, -⟩ := searchWithin_ok h
    · exact hq
    · cases hdepth
  | succ depth ih =>
    obtain ⟨-, rfl⟩ | ⟨entries, _, rfl, ⟨⟩, h⟩ := searchWithin_ok h
    · exact hq
    refine Result.foldlM_keeps (fun entry hentry _ _ hq h => ?_) hq h
    refine applyEntry_keeps (fun a ha _ _ hq h => ?_) hq h
    have hopen : ∀ t ∈ a.unguarded, Unbroken t := fun t ht =>
      htexts t (List.mem_flatMap.mpr ⟨a, List.mem_flatMap.mpr ⟨entry, hentry, ha⟩, ht⟩)
    have hsub : FiltersFit c (searchWithin depth .empty) (nestedFilters a.value) :=
      fun _ hf _ hf' =>
        ih (fun t ht => hopen t (unguarded_subset hf ht)) (Query.empty_fits trivial) hf'
    exact applyVerb_fits hsub (fun t ht => hopen t (List.mem_append_left _ ht)) hq h

end Search

/-- A query that fits is compiled without a separator. -/
theorem Query.Fits.build_unbroken {c : Compiler} {q : Query}
    (hq : q.Fits c (separatorLaw c.dialect)) {ps out : Params} {sql : String}
    (h : c.build q ps = .ok (sql, out)) : Unbroken sql := by
  unfold Compiler.build at h
  cases hrender : renderQuery c q with
  | error e =>
    rw [hrender] at h
    cases h
  | ok r =>
    rw [hrender] at h
    cases h
    exact renderQuery_holds hq _ _ hrender

namespace Search

/-- The statement of a filter holds no separator if the texts that the guard passes over hold none:
the aliases of columns and tables, the keys of order lists, the tables of joins, and columns of
conditions that are neither strings nor raw text. -/
theorem search_unbroken (c : Compiler) (filter : Json) (q : Query) (ps out : Params)
    (sql : String) (htexts : ∀ t ∈ unguarded filter, Unbroken t)
    (hsearch : search .empty filter = .ok q) (hbuild : c.build q ps = .ok (sql, out)) :
    Unbroken sql :=
  (searchWithin_fits htexts (Query.empty_fits trivial) hsearch).build_unbroken hbuild

/-- Tables and subqueries under aliases, an order list by keys and a join. -/
def ordersFilter : Json :=
  .object
    [("select", .object [("buyer", .string "u.name"), ("spent", .string "SUM(o.price)")]),
      ("from", .object [("o", .string "order")]),
      ("left_join[]", .array [.array [.object [("u", .object [("query", .object
        [("from", .string "user"), ("where", .object [("note", .string "a;b")])])])],
          .string "u.id = o.user_id"]]),
      ("group_by", .array [.string "u.name"]),
      ("order_by", .object [("spent", .string "desc")])]

theorem ordersFilter_unbroken : ∃ q sql out, search .empty ordersFilter = .ok q ∧
    (Compiler.ofDialect .mysql).build q .empty = .ok (sql, out) ∧ Unbroken sql :=
  ⟨_, _, _, rfl, rfl,
    search_unbroken (.ofDialect .mysql) ordersFilter _ .empty _ _ (by decide) rfl rfl⟩

/-! ## Order lists by keys -/

theorem renderOrders_keys (c : Compiler) : ∀ keys : List (String × Json),
    renderOrders c (keys.map fun e => ⟨.name e.1, directionOf e.2⟩) =
      .pure (keys.map fun e => orderNameText c.dialect e.1 (directionOf e.2))
  | [] => rfl
  | _ :: keys => by
    rw [List.map_cons, renderOrders, renderOrders_keys c keys]
    rfl

theorem applyEntry_plain {q : Query} {key : String} {j : Json} {verb : FilterVerb}
    (hkey : Text.dropTextEnd ['[', ']'] key.toList = none)
    (hverb : FilterVerb.parse key = .ok verb) :
    applyEntry sub q (key, j) = applyVerb sub q verb j := by
  unfold applyEntry
  simp only [hkey, hverb]
  rfl

/-- The keys of an order list are printed as they stand: the statement holds a separator if a key
does. -/
theorem orderKeys_printed (c : Compiler) (keys : List (String × Json)) (ps : Params) :
    ∃ q sql, search .empty (.object [("order_by", .object keys)]) = .ok q ∧
      c.build q ps = .ok (sql, ps) ∧ (Unbroken sql ↔ ∀ e ∈ keys, Unbroken e.1) := by
  have hsearch : search .empty (.object [("order_by", .object keys)]) =
      .ok (Query.empty.withOrderBy (keys.map fun e => ⟨.name e.1, directionOf e.2⟩)) := by
    change applyEntry _ .empty ("order_by", .object keys) >>= pure = _
    rw [applyEntry_plain rfl (show FilterVerb.parse "order_by" = .ok .orderBy from rfl)]
    rfl
  refine ⟨_, statementText ["SELECT *", "", "", "", "", "", listClauseText "ORDER BY"
    (keys.map fun e => orderNameText c.dialect e.1 (directionOf e.2)), ""] [], hsearch, ?_, ?_⟩
  · unfold Compiler.build renderQuery Query.withOrderBy Query.empty
    dsimp only
    rw [renderOrders_keys]
    rfl
  · have hselect : Unbroken "SELECT *" := by decide
    have hnone : Unbroken "" := by decide
    rw [unbroken_statementText]
    simp only [List.forall_mem_cons, hselect, hnone, true_and, List.forall_mem_map,
      unbroken_listClauseText (show Unbroken "ORDER BY" by decide), unbroken_orderNameText]
    exact and_iff_left fun _ h => absurd h List.not_mem_nil

/-! ## Conditions with named columns -/

/-- A column that the guard looks at: a string or raw text. -/
def isNamedColumn : Json → Bool
  | .string _ => true
  | .object [("exp", _)] => true
  | _ => false

mutual

/-- The first operand of every operator other than AND, OR and NOT is a column that the guard looks
at. -/
def namedColumns : Json → Bool
  | .array (.string op :: operands) => namedOperands (Operator.parse op).kind operands
  | _ => true

def namedOperands (kind : ConditionKind) : List Json → Bool
  | [] => true
  | j :: js =>
    match kind with
    | .not | .conjunction _ => namedColumns j && namedOperands kind js
    | _ => isNamedColumn j

end

/-- Whether a verb takes a condition for the WHERE or the HAVING clause. -/
def takesCondition : FilterVerb → Bool
  | .where_ | .andWhere | .orWhere | .filterWhere | .andFilterWhere | .orFilterWhere | .having
  | .andHaving | .orHaving => true
  | _ => false

theorem unguardedValue_condition {verb : FilterVerb} (h : takesCondition verb = true) (j : Json) :
    unguardedValue verb j = unguardedTexts j := by
  cases verb <;> first | rfl | cases h

theorem namedOperands_cons {kind : ConditionKind} (h : kind.isJunction = true) (j : Json)
    (js : List Json) :
    namedOperands kind (j :: js) = (namedColumns j && namedOperands kind js) := by
  cases kind <;> first | rfl | cases h

theorem namedOperands_column {kind : ConditionKind} (h : kind.isJunction = false) (j : Json)
    (js : List Json) : namedOperands kind (j :: js) = isNamedColumn j := by
  cases kind <;> first | rfl | cases h

/-- A column that is raw text prints its key at most. -/
theorem unguardedForm_named {kind : ConditionKind} (h : kind.isJunction = false) :
    ∀ {operands : List Json}, namedOperands kind operands = true →
    ∀ t ∈ unguardedForm kind operands, t = "exp"
  | [], _ => nofun
  | j :: js, hj => by
    rw [namedOperands_column h] at hj
    unfold isNamedColumn at hj
    split at hj
    · cases kind with
      | not | conjunction => cases h
      | _ => simp [unguardedForm]
    · cases kind with
      | not | conjunction => cases h
      | _ => simp [unguardedForm, printedForm, printedTexts, memberTexts]
    · cases hj

mutual

/-- The guard looks at everything that a condition with named columns prints. -/
theorem unguardedTexts_named : ∀ {j : Json}, namedColumns j = true →
    ∀ t ∈ unguardedTexts j, t = "exp"
  | .array (.string op :: operands), h => by
    cases hkind : (Operator.parse op).kind.isJunction with
    | true => exact unguardedForm_junction hkind h
    | false => exact unguardedForm_named hkind h
  | .string _, _ => nofun
  | .object _, _ => nofun
  | .null, _ => nofun
  | .bool _, _ => nofun
  | .number _, _ => nofun
  | .array [], _ => nofun
  | .array (.null :: _), _ => nofun
  | .array (.bool _ :: _), _ => nofun
  | .array (.number _ :: _), _ => nofun
  | .array (.array _ :: _), _ => nofun
  | .array (.object _ :: _), _ => nofun

theorem unguardedForm_junction {kind : ConditionKind} (hkind : kind.isJunction = true) :
    ∀ {operands : List Json}, namedOperands kind operands = true →
    ∀ t ∈ unguardedForm kind operands, t = "exp"
  | [], _ => nofun
  | j :: js, h => by
    rw [namedOperands_cons hkind, Bool.and_eq_true] at h
    rw [unguardedForm_cons hkind]
    exact List.forall_mem_append.mpr ⟨unguardedTexts_named h.1, unguardedForm_junction hkind h.2⟩

end

/-- The statement of a filter holds no separator if no condition in it holds a filter of its own or
a column that the guard passes over, and the other entries print none unguarded. What stands in the
values of the conditions does not matter. -/
theorem conditions_unbroken (c : Compiler) (filter : Json) (q : Query) (ps out : Params)
    (sql : String)
    (hconditions : ∀ a ∈ applied filter, takesCondition a.verb = true →
      namedColumns a.value = true ∧ nestedFilters a.value = [])
    (hothers : ∀ a ∈ applied filter, takesCondition a.verb = false →
      ∀ t ∈ a.unguarded, Unbroken t)
    (hsearch : search .empty filter = .ok q) (hbuild : c.build q ps = .ok (sql, out)) :
    Unbroken sql := by
  have htexts : ∀ t ∈ unguarded filter, Unbroken t := by
    intro t ht
    obtain ⟨a, ha, ht⟩ := List.mem_flatMap.mp ht
    cases hverb : takesCondition a.verb with
    | false => exact hothers a ha hverb t ht
    | true =>
      obtain ⟨hnamed, hnested⟩ := hconditions a ha hverb
      rw [Application.unguarded, unguardedValue_condition hverb, hnested] at ht
      rw [unguardedTexts_named hnamed t (by simpa using ht)]
      decide
  exact (searchWithin_fits htexts (Query.empty_fits trivial) hsearch).build_unbroken hbuild

/-- Users whose values hold separators. -/
def notesFilter : Json :=
  .object
    [("from", .string "user"),
      ("where", .array [.string "or",
        .array [.string "=", .string "note", .string "a;b"],
        .object [("name", .string "x;y")],
        .array [.string "not", .array [.string "like",
          .object [("exp", .array [.string "lower(title)", .object [("unused", .string ";")]])],
          .array [.string "c;d", .string "e"]]]])]

def notesSql : String :=
  "SELECT * FROM `user` WHERE (`note` = ?) OR (`name` = ?) OR " ++
    "(NOT (lower(title) LIKE ? AND lower(title) LIKE ?))"

theorem notesFilter_unbroken : ∃ q out, search .empty notesFilter = .ok q ∧
    (Compiler.ofDialect .mysql).build q .empty = .ok (notesSql, out) ∧ Unbroken notesSql :=
  ⟨_, _, rfl, rfl,
    conditions_unbroken (.ofDialect .mysql) notesFilter _ .empty _ notesSql (by decide) (by decide)
      rfl rfl⟩

end Search

end QueryKit
