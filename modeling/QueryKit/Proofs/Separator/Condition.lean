import QueryKit.Proofs.Separator.Printed

/-!
# Conditions that a filter writes

- `printedTexts`: the texts of a document that are printed when it is written as a condition.
- `unguardedTexts`: those of them that the guard of a filter does not look at. The guard reads
  operators, keys, the members of NOT, AND and OR, and a column that is a string. It passes over a
  column that is anything else.
- `nestedFilters`: the filters that stand within a document.
- `Safe`: an operand that prints no separator unless its document does.
- `conditionOf_safe`: the condition that a filter writes is safe, and guarded.
-/

namespace QueryKit

/-! ## Results -/

namespace Result

variable {α β : Type}

/-- A step taken for every item of a list. -/
theorem mem_mapM {f : α → Result β} : ∀ {as : List α} {bs : List β}, as.mapM f = .ok bs →
    ∀ b ∈ bs, ∃ a ∈ as, f a = .ok b
  | [], bs, h, b, hb => by
    rw [List.mapM_nil] at h
    cases h
    cases hb
  | a :: as, bs, h, b, hb => by
    rw [List.mapM_cons] at h
    obtain ⟨d, hd, h⟩ := bind_ok h
    obtain ⟨ds, hds, h⟩ := bind_ok h
    cases h
    rcases List.mem_cons.mp hb with rfl | hb
    · exact ⟨a, List.mem_cons_self, hd⟩
    · obtain ⟨a', ha', hf⟩ := mem_mapM hds b hb
      exact ⟨a', List.mem_cons_of_mem a ha', hf⟩

/-- What every step keeps holds after all of them. -/
theorem foldlM_keeps {P : β → Prop} {f : β → α → Result β} : ∀ {as : List α} {b b' : β},
    (∀ a ∈ as, ∀ b b', P b → f b a = .ok b' → P b') → P b → as.foldlM f b = .ok b' → P b'
  | [], _, _, _, hb, h => by
    cases h
    exact hb
  | _ :: _, _, _, hstep, hb, h => by
    obtain ⟨hhead, htail⟩ := List.forall_mem_cons.mp hstep
    rw [List.foldlM_cons] at h
    obtain ⟨b₁, hb₁, h⟩ := bind_ok h
    exact foldlM_keeps htail (hhead _ _ hb hb₁) h

end Result

namespace Search

/-! ## Texts of documents -/

mutual

/-- The texts of a document that are printed when it is a condition, or stands in the place of a
column. -/
def printedTexts : Json → List String
  | .string s => [s]
  | .object entries => entries.map Prod.fst
  | .array (.string op :: operands) => op :: printedForm (Operator.parse op).kind operands
  | _ => []

/-- The texts that an operator prints of its operands. -/
def printedForm (kind : ConditionKind) : List Json → List String
  | [] => []
  | j :: js =>
    match kind with
    | .not | .conjunction _ => printedTexts j ++ printedForm kind js
    | .isExists _ => []
    | .isIn _ => printedTexts j ++ memberTexts j
    | _ => printedTexts j

/-- The texts of a list of columns. -/
def memberTexts : Json → List String
  | .array items => itemTexts items
  | _ => []

def itemTexts : List Json → List String
  | [] => []
  | j :: js => printedTexts j ++ itemTexts js

end

mutual

/-- The printed texts of a condition that the guard passes over. -/
def unguardedTexts : Json → List String
  | .array (.string op :: operands) => unguardedForm (Operator.parse op).kind operands
  | _ => []

def unguardedForm (kind : ConditionKind) : List Json → List String
  | [] => []
  | j :: js =>
    match kind with
    | .not | .conjunction _ => unguardedTexts j ++ unguardedForm kind js
    | kind =>
      match j with
      | .string _ => []
      | column => printedForm kind [column]

end

/-- The filter that an object stands for. -/
def ownFilter : List (String × Json) → List Json
  | [("query", filter)] => [filter]
  | _ => []

mutual

/-- The filters within a document, at any depth. -/
def nestedFilters : Json → List Json
  | .object entries => ownFilter entries ++ entriesFilters entries
  | .array items => itemsFilters items
  | _ => []

def itemsFilters : List Json → List Json
  | [] => []
  | j :: js => nestedFilters j ++ itemsFilters js

def entriesFilters : List (String × Json) → List Json
  | [] => []
  | (_, j) :: es => nestedFilters j ++ entriesFilters es

end

/-! ### Filters within filters -/

theorem mem_ownFilter {f : Json} {entries : List (String × Json)} (h : f ∈ ownFilter entries) :
    entries = [("query", f)] := by
  unfold ownFilter at h
  split at h
  · rw [List.mem_singleton.mp h]
  · cases h

theorem nestedFilters_item {j : Json} : ∀ {items : List Json}, j ∈ items →
    nestedFilters j ⊆ itemsFilters items
  | _ :: _, h => by
    rcases List.mem_cons.mp h with rfl | h
    · exact List.subset_append_left _ _
    · exact List.subset_append_of_subset_right _ (nestedFilters_item h)

theorem nestedFilters_entry {key : String} {j : Json} : ∀ {entries : List (String × Json)},
    (key, j) ∈ entries → nestedFilters j ⊆ entriesFilters entries
  | (_, _) :: _, h => by
    rcases List.mem_cons.mp h with he | h
    · cases he
      exact List.subset_append_left _ _
    · exact List.subset_append_of_subset_right _ (nestedFilters_entry h)

mutual

/-- A filter within a filter is within what the latter is within. -/
theorem nestedFilters_trans {f : Json} : ∀ {j : Json}, f ∈ nestedFilters j →
    nestedFilters f ⊆ nestedFilters j
  | .object entries, h => by
    rcases List.mem_append.mp h with hown | hentry
    · rw [mem_ownFilter hown]
      exact List.subset_append_of_subset_right _ (List.subset_append_left _ _)
    · exact List.subset_append_of_subset_right _ (entriesFilters_trans hentry)
  | .array _, h => itemsFilters_trans h

theorem itemsFilters_trans {f : Json} : ∀ {items : List Json}, f ∈ itemsFilters items →
    nestedFilters f ⊆ itemsFilters items
  | _ :: _, h => by
    rcases List.mem_append.mp h with h | h
    · exact List.subset_append_of_subset_left _ (nestedFilters_trans h)
    · exact List.subset_append_of_subset_right _ (itemsFilters_trans h)

theorem entriesFilters_trans {f : Json} : ∀ {entries : List (String × Json)},
    f ∈ entriesFilters entries → nestedFilters f ⊆ entriesFilters entries
  | (_, _) :: _, h => by
    rcases List.mem_append.mp h with h | h
    · exact List.subset_append_of_subset_left _ (nestedFilters_trans h)
    · exact List.subset_append_of_subset_right _ (entriesFilters_trans h)

end

/-! ## The guard -/

theorem unbroken_of_forM : ∀ {entries : List (String × Json)},
    (entries.forM fun e => guardText e.1) = .ok () → ∀ t ∈ entries.map Prod.fst, Unbroken t
  | [], _ => nofun
  | e :: entries, h => by
    change (guardText e.1 >>= fun _ => entries.forM fun e => guardText e.1) = .ok () at h
    obtain ⟨_, hkey, h⟩ := Result.bind_ok h
    exact List.forall_mem_cons.mpr ⟨guardText_eq_ok.mp hkey, unbroken_of_forM h⟩

/-- What the guard finds in an operator list. -/
theorem guardCondition_form {op : String} {operands : List Json}
    (h : guardCondition (.array (.string op :: operands)) = .ok ()) :
    Unbroken op ∧
      ((Operator.parse op).kind.isJunction = true → guardMembers operands = .ok ()) ∧
      ((Operator.parse op).kind.isJunction = false →
        ∀ column rest, operands = .string column :: rest → Unbroken column) := by
  unfold guardCondition at h
  obtain ⟨_, hop, h⟩ := Result.bind_ok h
  refine ⟨guardText_eq_ok.mp hop, ?_⟩
  generalize (Operator.parse op).kind = kind at h ⊢
  cases kind with
  | not | conjunction => exact ⟨fun _ => h, nofun⟩
  | _ =>
    refine ⟨nofun, ?_⟩
    rintro _ column rest rfl
    exact guardText_eq_ok.mp h

theorem printedForm_cons {kind : ConditionKind} (h : kind.isJunction = true) (j : Json)
    (js : List Json) : printedForm kind (j :: js) = printedTexts j ++ printedForm kind js := by
  cases kind <;> first | rfl | cases h

theorem unguardedForm_cons {kind : ConditionKind} (h : kind.isJunction = true) (j : Json)
    (js : List Json) :
    unguardedForm kind (j :: js) = unguardedTexts j ++ unguardedForm kind js := by
  cases kind <;> first | rfl | cases h

/-- An operator that is no junction prints its column. -/
theorem printedForm_column {kind : ConditionKind} (h : kind.isJunction = false)
    {operands : List Json}
    (hstring : ∀ column rest, operands = .string column :: rest → Unbroken column)
    (hopen : ∀ t ∈ unguardedForm kind operands, Unbroken t) :
    ∀ t ∈ printedForm kind operands, Unbroken t := by
  cases operands with
  | nil => exact nofun
  | cons j js =>
    cases j with
    | string column =>
      have hcolumn := hstring column js rfl
      cases kind with
      | not | conjunction => cases h
      | isExists => exact nofun
      | isIn => exact List.forall_mem_singleton.mpr hcolumn
      | _ => exact List.forall_mem_singleton.mpr hcolumn
    | _ => cases kind <;> first | exact hopen | cases h

mutual

/-- What a guarded condition prints holds no separator, if what the guard passes over holds none. A
condition that is a string is guarded on its own. -/
theorem printedTexts_of_guard : ∀ {j : Json}, guardCondition j = .ok () →
    (∀ s, j = .string s → Unbroken s) → (∀ t ∈ unguardedTexts j, Unbroken t) →
    ∀ t ∈ printedTexts j, Unbroken t
  | .string s, _, hstring, _ => List.forall_mem_singleton.mpr (hstring s rfl)
  | .object entries, h, _, _ => unbroken_of_forM h
  | .array (.string op :: operands), h, _, hopen => by
    obtain ⟨hop, hmembers, hcolumn⟩ := guardCondition_form h
    refine List.forall_mem_cons.mpr ⟨hop, ?_⟩
    cases hkind : (Operator.parse op).kind.isJunction with
    | true => exact printedForm_of_guard hkind (hmembers hkind) hopen
    | false => exact printedForm_column hkind (hcolumn hkind) hopen
  | .null, _, _, _ => nofun
  | .bool _, _, _, _ => nofun
  | .number _, _, _, _ => nofun
  | .array [], _, _, _ => nofun
  | .array (.null :: _), _, _, _ => nofun
  | .array (.bool _ :: _), _, _, _ => nofun
  | .array (.number _ :: _), _, _, _ => nofun
  | .array (.array _ :: _), _, _, _ => nofun
  | .array (.object _ :: _), _, _, _ => nofun

theorem printedForm_of_guard {kind : ConditionKind} (hkind : kind.isJunction = true) :
    ∀ {operands : List Json}, guardMembers operands = .ok () →
    (∀ t ∈ unguardedForm kind operands, Unbroken t) → ∀ t ∈ printedForm kind operands, Unbroken t
  | [], _, _ => nofun
  | j :: js, h, hopen => by
    rw [unguardedForm_cons hkind] at hopen
    rw [printedForm_cons hkind]
    obtain ⟨hj, hjs⟩ := List.forall_mem_append.mp hopen
    have hboth : ((∀ s, j = .string s → Unbroken s) ∧ guardCondition j = .ok ()) ∧
        guardMembers js = .ok () := by
      cases j with
      | string s =>
        obtain ⟨_, hs, h⟩ := Result.bind_ok h
        refine ⟨⟨?_, rfl⟩, h⟩
        rintro _ ⟨⟩
        exact guardText_eq_ok.mp hs
      | _ =>
        obtain ⟨_, hj, h⟩ := Result.bind_ok h
        exact ⟨⟨nofun, hj⟩, h⟩
    obtain ⟨⟨hstring, hguard⟩, hrest⟩ := hboth
    exact List.forall_mem_append.mpr
      ⟨printedTexts_of_guard hguard hstring hj, printedForm_of_guard hkind hrest hjs⟩

end

/-! ## Operands that documents write -/

variable {c : Compiler}

/-- The expressions in an operand fit, and it prints no separator unless its document does. -/
structure Safe (c : Compiler) (j : Json) (o : Operand) : Prop where
  bound : o.Fits c (separatorLaw c.dialect) .bound
  token : ∀ s, o.asString = some s → j = .string s
  printed : (∀ t ∈ printedTexts j, Unbroken t) → ∀ t ∈ o.printed, Unbroken t
  members : (∀ t ∈ memberTexts j, Unbroken t) → ∀ t ∈ o.printedMembers, Unbroken t

/-- The operands of a list, each safe for its document. -/
inductive SafeItems (c : Compiler) : List Json → List Operand → Prop where
  | nil : SafeItems c [] []
  | cons {j : Json} {js : List Json} {o : Operand} {os : List Operand} :
      Safe c j o → SafeItems c js os → SafeItems c (j :: js) (o :: os)

/-- The values of a map, each safe for its document and under its key. -/
inductive SafeEntries (c : Compiler) : List (String × Json) → List (String × Operand) → Prop where
  | nil : SafeEntries c [] []
  | cons {key : String} {j : Json} {es : List (String × Json)} {o : Operand}
      {os : List (String × Operand)} :
      Safe c j o → SafeEntries c es os → SafeEntries c ((key, j) :: es) ((key, o) :: os)

namespace SafeItems

variable {js : List Json} {os : List Operand}

theorem bound (h : SafeItems c js os) : ItemsFit c (separatorLaw c.dialect) .bound os := by
  induction h with
  | nil => trivial
  | cons ho _ ih => exact ⟨ho.bound, ih⟩

theorem items (h : SafeItems c js os) (htexts : ∀ t ∈ itemTexts js, Unbroken t) :
    ∀ t ∈ printedItems os, Unbroken t := by
  induction h with
  | nil => exact nofun
  | cons ho _ ih =>
    obtain ⟨hj, hjs⟩ := List.forall_mem_append.mp htexts
    exact List.forall_mem_append.mpr ⟨ho.printed hj, ih hjs⟩

theorem operands {kind : ConditionKind} (h : SafeItems c js os)
    (htexts : ∀ t ∈ printedForm kind js, Unbroken t) :
    ∀ t ∈ printedOperands kind os, Unbroken t := by
  induction h with
  | nil => exact nofun
  | cons ho _ ih =>
    cases kind with
    | not | conjunction =>
      obtain ⟨hj, hjs⟩ := List.forall_mem_append.mp htexts
      exact List.forall_mem_append.mpr ⟨ho.printed hj, ih hjs⟩
    | isExists => exact nofun
    | isIn =>
      obtain ⟨hj, hmembers⟩ := List.forall_mem_append.mp htexts
      exact List.forall_mem_append.mpr ⟨ho.printed hj, ho.members hmembers⟩
    | _ => exact ho.printed htexts

end SafeItems

namespace SafeEntries

variable {es : List (String × Json)} {os : List (String × Operand)}

theorem keys (h : SafeEntries c es os) : os.map Prod.fst = es.map Prod.fst := by
  induction h with
  | nil => rfl
  | cons _ _ ih => rw [List.map_cons, List.map_cons, ih]

theorem bound (h : SafeEntries c es os) : ValuesFit c (separatorLaw c.dialect) os := by
  induction h with
  | nil => trivial
  | cons ho _ ih => exact ⟨ho.bound, ih⟩

end SafeEntries

namespace Safe

variable {j : Json} {o : Operand}

/-- An operand that is an expression prints nothing of its document. -/
theorem expr {e : Expression} (h : e.Fits c (separatorLaw c.dialect)) : Safe c j (.expr e) :=
  ⟨h, nofun, fun _ => nofun, fun _ => nofun⟩

theorem list {js : List Json} {os : List Operand} (h : SafeItems c js os) :
    Safe c (.array js) (.list os) := by
  refine ⟨h.bound, nofun, fun htexts => ?_, h.items⟩
  cases h with
  | nil => exact nofun
  | @cons j js head operands hhead hoperands =>
    rw [Operand.printed]
    cases htoken : head.asString with
    | none => exact nofun
    | some token =>
      obtain rfl := hhead.token token htoken
      obtain ⟨hop, hrest⟩ := List.forall_mem_cons.mp htexts
      exact List.forall_mem_cons.mpr ⟨hop, hoperands.operands hrest⟩

theorem map {es : List (String × Json)} {os : List (String × Operand)} (h : SafeEntries c es os) :
    Safe c (.object es) (.map os) := by
  refine ⟨h.bound, nofun, fun htexts => ?_, fun _ => nofun⟩
  rw [Operand.printed, h.keys]
  exact htexts

/-- A document that is no array and no object. -/
theorem scalar (harray : ∀ items, j ≠ .array items) (hobject : ∀ entries, j ≠ .object entries) :
    Safe c j (.ofJson j) := by
  cases j with
  | array items => exact absurd rfl (harray items)
  | object entries => exact absurd rfl (hobject entries)
  | null => exact ⟨trivial, nofun, fun _ => by decide, fun _ => nofun⟩
  | bool b => exact ⟨trivial, nofun, fun _ => by cases b <;> decide, fun _ => nofun⟩
  | number n =>
    refine ⟨trivial, ?_, fun _ => List.forall_mem_singleton.mpr (unbroken_number n),
      fun _ => nofun⟩
    intro s hs
    change (Value.ofJsonNumber n).asString = some s at hs
    unfold Value.ofJsonNumber at hs
    split at hs <;> cases hs
  | string s =>
    refine ⟨trivial, ?_, fun h => h, fun _ => nofun⟩
    rintro _ ⟨⟩
    rfl

/-- A safe operand fits if its document prints no separator. -/
theorem fits (h : Safe c j o) (htexts : ∀ t ∈ printedTexts j, Unbroken t) (role : Role) :
    o.Fits c (separatorLaw c.dialect) role :=
  Operand.fits_of_printed role h.bound (h.printed htexts)

/-- So does what filtering leaves of it. -/
theorem filter_fits (h : Safe c j o) (htexts : ∀ t ∈ printedTexts j, Unbroken t) (role : Role) :
    o.filter.Fits c (separatorLaw c.dialect) role :=
  Operand.filter_fits role h.bound (h.printed htexts)

end Safe

/-! ### Documents without expressions -/

mutual

theorem ofJson_safe : ∀ j : Json, Safe c j (.ofJson j)
  | .array items => .list (itemsOfJson_safe items)
  | .object entries => .map (entriesOfJson_safe entries)
  | .null => .scalar nofun nofun
  | .bool _ => .scalar nofun nofun
  | .number _ => .scalar nofun nofun
  | .string _ => .scalar nofun nofun

theorem itemsOfJson_safe : ∀ items : List Json, SafeItems c items (Operand.itemsOfJson items)
  | [] => .nil
  | j :: js => .cons (ofJson_safe j) (itemsOfJson_safe js)

theorem entriesOfJson_safe : ∀ entries : List (String × Json),
    SafeEntries c entries (Operand.entriesOfJson entries)
  | [] => .nil
  | (_, j) :: es => .cons (ofJson_safe j) (entriesOfJson_safe es)

end

/-! ### Documents with filters and raw texts -/

/-- Raw text is guarded. -/
theorem rawExpression_fits {raw : Json} {e : Expression} (h : rawExpression raw = .ok e) :
    e.Fits c (separatorLaw c.dialect) := by
  unfold rawExpression at h
  split at h
  case h_1 | h_2 | h_3 =>
    obtain ⟨_, hsql, h⟩ := Result.bind_ok h
    cases h
    exact guardText_eq_ok.mp hsql
  all_goals cases h

variable {sub : Json → Result Query}

/-- The filters of a list make queries that fit. -/
def FiltersFit (c : Compiler) (sub : Json → Result Query) (filters : List Json) : Prop :=
  ∀ f ∈ filters, ∀ q, sub f = .ok q → q.Fits c (separatorLaw c.dialect)

theorem FiltersFit.mono {fs gs : List Json} (h : FiltersFit c sub gs) (hsub : fs ⊆ gs) :
    FiltersFit c sub fs :=
  fun f hf => h f (hsub hf)

/-- The expression that an object stands for fits, if the filters in it make queries that fit. -/
theorem nestedExpression_fits {j : Json} {e : Expression}
    (hsub : FiltersFit c sub (nestedFilters j)) (h : nestedExpression sub j = .ok (some e)) :
    e.Fits c (separatorLaw c.dialect) := by
  unfold nestedExpression at h
  split at h
  · next f =>
    obtain ⟨q, hq, h⟩ := Result.bind_ok h
    cases h
    exact hsub f (List.mem_append_left _ List.mem_cons_self) q hq
  · obtain ⟨e', he, h⟩ := Result.bind_ok h
    cases h
    exact rawExpression_fits he
  · cases h

mutual

theorem expandedOperand_safe : ∀ {j : Json} {o : Operand},
    FiltersFit c sub (nestedFilters j) → expandedOperand sub j = .ok o → Safe c j o
  | .array items, o, hsub, h => by
    obtain ⟨_, ⟨⟩, h⟩ := Result.bind_ok h
    obtain ⟨os, hos, h⟩ := Result.bind_ok h
    cases h
    exact .list (expandedItems_safe hsub hos)
  | .object entries, o, hsub, h => by
    obtain ⟨found, hfound, h⟩ := Result.bind_ok h
    cases found with
    | some e =>
      cases h
      exact .expr (nestedExpression_fits hsub hfound)
    | none =>
      obtain ⟨os, hos, h⟩ := Result.bind_ok h
      cases h
      exact .map (expandedEntries_safe (hsub.mono (List.subset_append_right _ _)) hos)
  | .null, _, _, h => by
    cases h
    exact .scalar nofun nofun
  | .bool _, _, _, h => by
    cases h
    exact .scalar nofun nofun
  | .number _, _, _, h => by
    cases h
    exact .scalar nofun nofun
  | .string _, _, _, h => by
    cases h
    exact .scalar nofun nofun

theorem expandedItems_safe : ∀ {js : List Json} {os : List Operand},
    FiltersFit c sub (itemsFilters js) → expandedItems sub js = .ok os → SafeItems c js os
  | [], _, _, h => by
    cases h
    exact .nil
  | _ :: _, _, hsub, h => by
    obtain ⟨o, ho, h⟩ := Result.bind_ok h
    obtain ⟨os, hos, h⟩ := Result.bind_ok h
    cases h
    obtain ⟨hj, hjs⟩ := List.forall_mem_append.mp hsub
    exact .cons (expandedOperand_safe hj ho) (expandedItems_safe hjs hos)

theorem expandedEntries_safe : ∀ {es : List (String × Json)} {os : List (String × Operand)},
    FiltersFit c sub (entriesFilters es) → expandedEntries sub es = .ok os → SafeEntries c es os
  | [], _, _, h => by
    cases h
    exact .nil
  | (_, _) :: _, _, hsub, h => by
    obtain ⟨o, ho, h⟩ := Result.bind_ok h
    obtain ⟨os, hos, h⟩ := Result.bind_ok h
    cases h
    obtain ⟨hj, hjs⟩ := List.forall_mem_append.mp hsub
    exact .cons (expandedOperand_safe hj ho) (expandedEntries_safe hjs hos)

end

/-- The condition that a filter writes is safe, and the guard has looked at it. -/
theorem conditionOf_safe {expands : Bool} {j : Json} {o : Operand}
    (hsub : FiltersFit c sub (nestedFilters j)) (h : conditionOf sub expands j = .ok o) :
    Safe c j o ∧ guardCondition j = .ok () := by
  obtain ⟨_, hguard, h⟩ := Result.bind_ok h
  refine ⟨?_, hguard⟩
  cases expands with
  | true => exact expandedOperand_safe hsub h
  | false =>
    cases h
    exact ofJson_safe j

end Search

end QueryKit
