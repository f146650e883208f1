import QueryKit.Proofs.Separator.Condition

/-!
# Verbs of a filter

- `unguardedValue`: the texts of a verb's value that are printed and not guarded: aliases, the keys
  of order lists, the table of a join that is written as text, and columns of conditions.
- `conditionOf_fits`, `columnItems_fit`, `nameItems_fit`, `orderItems_fit`: what is built out of the
  pieces of a value.
- `applyVerb_fits`: a verb keeps a query fit if no unguarded text of its value holds a separator.
-/

namespace QueryKit

namespace Search

/-! ## What the guard passes over -/

/-- The aliases of a list of columns or tables, and the keys of an order list. -/
def labelTexts : Json → List String
  | .object entries => entries.map Prod.fst
  | _ => []

/-- The texts of the table of a join. A list that is a string is not guarded there. -/
def tableTexts : Json → List String
  | .string s => [s]
  | j => labelTexts j

/-- The texts of a join's table and condition. -/
def joinTexts (arguments : List Json) : List String :=
  tableTexts (arguments.getD 0 .null) ++ unguardedTexts (arguments.getD 1 .null)

/-- The texts of a verb's value that are printed and not guarded. -/
def unguardedValue (verb : FilterVerb) (j : Json) : List String :=
  match verb with
  | .select | .addSelect | .from_ | .orderBy => labelTexts j
  | .where_ | .andWhere | .orWhere | .filterWhere | .andFilterWhere | .orFilterWhere
  | .having | .andHaving | .orHaving => unguardedTexts j
  | .join =>
    match j with
    | .array (_ :: arguments) => joinTexts arguments
    | _ => []
  | .leftJoin | .innerJoin | .rightJoin =>
    match j with
    | .array arguments => joinTexts arguments
    | _ => []
  | _ => []

/-! ## Pieces of a filter -/

section Verbs

variable {c : Compiler} {sub : Json → Result Query} {j : Json}

theorem columnItem_fits {label : Option String} {item : ColumnItem}
    (hsub : FiltersFit c sub (nestedFilters j)) (hlabel : ∀ a ∈ label, Unbroken a)
    (h : columnItem sub label j = .ok item) : item.Fits c (separatorLaw c.dialect) := by
  obtain ⟨found, hfound, h⟩ := Result.bind_ok h
  cases found with
  | some e =>
    cases h
    exact ⟨hlabel, nestedExpression_fits hsub hfound⟩
  | none =>
    dsimp only at h
    split at h
    · obtain ⟨_, hname, h⟩ := Result.bind_ok h
      cases h
      exact ⟨hlabel, guardText_eq_ok.mp hname⟩
    · cases h

theorem columnItems_fit {items : List ColumnItem}
    (hsub : FiltersFit c sub (nestedFilters j)) (htexts : ∀ t ∈ tableTexts j, Unbroken t)
    (h : columnItems sub j = .ok items) : ∀ item ∈ items, item.Fits c (separatorLaw c.dialect) := by
  unfold columnItems at h
  cases j with
  | string s =>
    cases h
    intro item hitem
    obtain ⟨name, hname, rfl⟩ := List.mem_map.mp hitem
    exact ⟨nofun, (htexts s List.mem_cons_self).subset (splitColumns_subset hname)⟩
  | array js =>
    intro item hitem
    obtain ⟨i, hi, hitem⟩ := Result.mem_mapM h item hitem
    exact columnItem_fits (hsub.mono (nestedFilters_item hi)) (by simp) hitem
  | object entries =>
    obtain ⟨found, hfound, h⟩ := Result.bind_ok h
    cases found with
    | some e =>
      cases h
      exact List.forall_mem_singleton.mpr ⟨nofun, nestedExpression_fits hsub hfound⟩
    | none =>
      intro item hitem
      obtain ⟨⟨key, i⟩, hi, hitem⟩ := Result.mem_mapM h item hitem
      have hkey : Unbroken key := htexts key (List.mem_map_of_mem hi)
      have hvalue : nestedFilters i ⊆ nestedFilters (.object entries) :=
        List.subset_append_of_subset_right _ (nestedFilters_entry hi)
      refine columnItem_fits (hsub.mono hvalue) (fun _ ha => ?_) hitem
      cases ha
      exact hkey
  | null =>
    cases h
    exact nofun
  | bool b => cases h
  | number n => cases h

theorem joinTable_fits {item : ColumnItem}
    (hsub : FiltersFit c sub (nestedFilters j)) (htexts : ∀ t ∈ tableTexts j, Unbroken t)
    (h : joinTable sub j = .ok item) : item.Fits c (separatorLaw c.dialect) := by
  obtain ⟨items, hitems, h⟩ := Result.bind_ok h
  split at h
  · cases h
    exact columnItems_fit hsub htexts hitems _ List.mem_cons_self
  · cases h

/-- A condition other than a string fits if what the guard passes over holds no separator. -/
theorem conditionOf_fits {expands : Bool} {o : Operand}
    (hsub : FiltersFit c sub (nestedFilters j)) (hstring : ∀ s, j = .string s → Unbroken s)
    (htexts : ∀ t ∈ unguardedTexts j, Unbroken t) (h : conditionOf sub expands j = .ok o) :
    o.Fits c (separatorLaw c.dialect) .condition ∧
      o.filter.Fits c (separatorLaw c.dialect) .condition := by
  obtain ⟨hsafe, hguard⟩ := conditionOf_safe hsub h
  have hprinted := printedTexts_of_guard hguard hstring htexts
  exact ⟨hsafe.fits hprinted .condition, hsafe.filter_fits hprinted .condition⟩

theorem joinCondition_fits {o : Operand}
    (hsub : FiltersFit c sub (nestedFilters j)) (htexts : ∀ t ∈ unguardedTexts j, Unbroken t)
    (h : joinCondition sub j = .ok o) : o.Fits c (separatorLaw c.dialect) .condition := by
  unfold joinCondition at h
  split at h
  · cases h
    exact separatorLaw_unbound .condition (by decide)
  · obtain ⟨_, hon, h⟩ := Result.bind_ok h
    cases h
    exact separatorLaw_unbound .condition (guardText_eq_ok.mp hon)
  · next hnull hstring =>
    exact (conditionOf_fits hsub (fun s hs => absurd hs (hstring s)) htexts h).1

theorem nestedFilters_getD (items : List Json) (n : Nat) :
    nestedFilters (items.getD n .null) ⊆ itemsFilters items := by
  rw [List.getD_eq_getElem?_getD]
  cases hitem : items[n]? with
  | none => exact List.nil_subset _
  | some item => exact nestedFilters_item (List.mem_of_getElem? hitem)

theorem applyJoin_fits {q q' : Query} {type : JoinType} {arguments : List Json}
    (hsub : FiltersFit c sub (itemsFilters arguments))
    (htexts : ∀ t ∈ joinTexts arguments, Unbroken t) (hq : q.Fits c (separatorLaw c.dialect))
    (h : applyJoin sub q type arguments = .ok q') : q'.Fits c (separatorLaw c.dialect) := by
  obtain ⟨htable, hon⟩ := List.forall_mem_append.mp htexts
  have hargument := fun n => hsub.mono (nestedFilters_getD arguments n)
  obtain ⟨table, hitem, h⟩ := Result.bind_ok h
  obtain ⟨on, hcondition, h⟩ := Result.bind_ok h
  cases h
  exact Query.join_fits hq type (joinTable_fits (hargument 0) htable hitem)
    (joinCondition_fits (hargument 1) hon hcondition)

theorem joinArguments_ok {least most : Nat} {arguments : List Json}
    (h : joinArguments least most j = .ok arguments) : j = .array arguments := by
  unfold joinArguments at h
  split at h
  · split at h
    · cases h
      rfl
    · cases h
  · cases h

theorem nameItems_fit {items : List ColumnItem} (hstring : ∀ s, j = .string s → Unbroken s)
    (h : nameItems j = .ok items) :
    ∀ item ∈ items, item.column.Fits c (separatorLaw c.dialect) := by
  unfold nameItems at h
  split at h
  · next s =>
    cases h
    intro item hitem
    obtain ⟨part, hpart, rfl⟩ := List.mem_map.mp hitem
    exact (hstring s rfl).ofList (listParts_subset hpart)
  · intro item hitem
    obtain ⟨name, -, hname⟩ := Result.mem_mapM h item hitem
    split at hname
    · obtain ⟨_, hguard, hname⟩ := Result.bind_ok hname
      cases hname
      exact guardText_eq_ok.mp hguard
    · cases hname
  · cases h

theorem orderOfPart_fits {s : String} {part : List Char} (hs : Unbroken s)
    (hpart : part ⊆ s.toList) : (orderOfPart part).column.Fits c (separatorLaw c.dialect) := by
  unfold orderOfPart
  split
  · next column word hsplit =>
    have hcolumn : Text.trimChars column ⊆ s.toList :=
      List.Subset.trans (Text.trimChars_subset column)
        (List.Subset.trans (splitLastBlank_subset hsplit) hpart)
    split
    · exact hs.ofList hcolumn
    · split
      · exact hs.ofList hcolumn
      · exact hs.ofList hpart
  · exact hs.ofList hpart

theorem orderItems_fit {items : List OrderItem} (hstring : ∀ s, j = .string s → Unbroken s)
    (htexts : ∀ t ∈ labelTexts j, Unbroken t) (h : orderItems j = .ok items) :
    ∀ item ∈ items, item.column.Fits c (separatorLaw c.dialect) := by
  unfold orderItems at h
  split at h
  · next s =>
    cases h
    intro item hitem
    obtain ⟨part, hpart, rfl⟩ := List.mem_map.mp hitem
    exact orderOfPart_fits (hstring s rfl) (listParts_subset hpart)
  · cases h
    intro item hitem
    obtain ⟨e, he, rfl⟩ := List.mem_map.mp hitem
    exact htexts e.1 (List.mem_map_of_mem he)
  · cases h

/-! ## Verbs -/

theorem guarded_step {next : Unit → Result Query} {q : Query}
    (h : (match j with
      | .string s => guardText s >>= next
      | _ => next ()) = .ok q) : (∀ s, j = .string s → Unbroken s) ∧ next () = .ok q := by
  cases j with
  | string s =>
    obtain ⟨_, hs, h⟩ := Result.bind_ok h
    refine ⟨?_, h⟩
    rintro _ ⟨⟩
    exact guardText_eq_ok.mp hs
  | _ =>
    refine ⟨?_, h⟩
    rintro _ ⟨⟩

theorem tableTexts_of_guard (hstring : ∀ s, j = .string s → Unbroken s)
    (htexts : ∀ t ∈ labelTexts j, Unbroken t) : ∀ t ∈ tableTexts j, Unbroken t := by
  cases j with
  | string s => exact List.forall_mem_singleton.mpr (hstring s rfl)
  | _ => exact htexts

/-- A verb that takes a condition uses it as it is or filtered. -/
theorem applyCondition_fits {build : Query → Operand → Query} {q q' : Query} {verb : FilterVerb}
    (hbuild : ∀ o : Operand, o.Fits c (separatorLaw c.dialect) .condition →
      o.filter.Fits c (separatorLaw c.dialect) .condition →
      (build q o).Fits c (separatorLaw c.dialect))
    (hsub : FiltersFit c sub (nestedFilters j)) (hstring : ∀ s, j = .string s → Unbroken s)
    (htexts : ∀ t ∈ unguardedTexts j, Unbroken t) (h : applyCondition sub build q verb j = .ok q') :
    q'.Fits c (separatorLaw c.dialect) := by
  obtain ⟨o, ho, h⟩ := Result.bind_ok h
  cases h
  obtain ⟨hfits, hfilter⟩ := conditionOf_fits hsub hstring htexts ho
  exact hbuild o hfits hfilter

/-- A verb keeps a query fit if no unguarded text of its value holds a separator. -/
theorem applyVerb_fits {q q' : Query} {verb : FilterVerb}
    (hsub : FiltersFit c sub (nestedFilters j)) (htexts : ∀ t ∈ unguardedValue verb j, Unbroken t)
    (hq : q.Fits c (separatorLaw c.dialect)) (happly : applyVerb sub q verb j = .ok q') :
    q'.Fits c (separatorLaw c.dialect) := by
  obtain ⟨hstring, h⟩ := guarded_step happly
  cases verb with
  | select =>
    obtain ⟨items, hitems, h⟩ := Result.bind_ok h
    cases h
    exact Query.withSelect_fits hq
      (columnItems_fit hsub (tableTexts_of_guard hstring htexts) hitems)
  | addSelect =>
    obtain ⟨items, hitems, h⟩ := Result.bind_ok h
    cases h
    exact Query.addSelect_fits hq
      (columnItems_fit hsub (tableTexts_of_guard hstring htexts) hitems)
  | from_ =>
    obtain ⟨items, hitems, h⟩ := Result.bind_ok h
    cases h
    exact Query.from_fits hq (columnItems_fit hsub (tableTexts_of_guard hstring htexts) hitems)
  | where_ =>
    exact applyCondition_fits (fun _ ho _ => Query.where_keeps hq ho) hsub hstring htexts h
  | andWhere =>
    exact applyCondition_fits (fun _ ho _ => Query.andWhere_keeps hq ho) hsub hstring htexts h
  | orWhere =>
    exact applyCondition_fits (fun _ ho _ => Query.orWhere_keeps hq ho) hsub hstring htexts h
  | filterWhere =>
    exact applyCondition_fits (fun _ _ ho => Query.where_keeps.filtered hq ho) hsub hstring htexts
      h
  | andFilterWhere =>
    exact applyCondition_fits (fun _ _ ho => Query.andWhere_keeps.filtered hq ho) hsub hstring
      htexts h
  | orFilterWhere =>
    exact applyCondition_fits (fun _ _ ho => Query.orWhere_keeps.filtered hq ho) hsub hstring
      htexts h
  | having =>
    exact applyCondition_fits (fun _ ho _ => Query.withHaving_keeps hq ho) hsub hstring htexts h
  | andHaving =>
    exact applyCondition_fits (fun _ ho _ => Query.andHaving_keeps hq ho) hsub hstring htexts h
  | orHaving =>
    exact applyCondition_fits (fun _ ho _ => Query.orHaving_keeps hq ho) hsub hstring htexts h
  | groupBy =>
    obtain ⟨items, hitems, h⟩ := Result.bind_ok h
    cases h
    exact Query.withGroupBy_fits hq (nameItems_fit hstring hitems)
  | orderBy =>
    obtain ⟨items, hitems, h⟩ := Result.bind_ok h
    cases h
    exact Query.withOrderBy_fits hq (orderItems_fit hstring htexts hitems)
  | limit =>
    obtain ⟨limit, -, h⟩ := Result.bind_ok h
    cases h
    exact Query.withLimit_fits hq limit
  | offset =>
    obtain ⟨offset, -, h⟩ := Result.bind_ok h
    cases h
    exact Query.withOffset_fits hq offset
  | distinct =>
    cases h
    exact Query.ClausesFit.fits { hq.clauses with }
  | join =>
    obtain ⟨arguments, harguments, hjoin⟩ := Result.bind_ok h
    rw [joinArguments_ok harguments] at hsub htexts
    split at hjoin
    · obtain ⟨type, -, hjoin⟩ := Result.bind_ok hjoin
      exact applyJoin_fits (hsub.mono (List.subset_append_right _ _)) htexts hq hjoin
    · cases hjoin
  | leftJoin | innerJoin | rightJoin =>
    obtain ⟨arguments, harguments, hjoin⟩ := Result.bind_ok h
    rw [joinArguments_ok harguments] at hsub htexts
    exact applyJoin_fits hsub htexts hq hjoin
  | indexBy =>
    dsimp only at h
    split at h
    · cases h
      exact Query.ClausesFit.fits { hq.clauses with }
    · cases h

end Verbs

end Search

end QueryKit
