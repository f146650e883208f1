import QueryKit.Proofs.Compile.Fragment
import QueryKit.Proofs.Placeholder.Quoting
import QueryKit.Proofs.Text.Case
import QueryKit.Search.Filter

/-!
# Texts without a statement separator

- `Unbroken`: no `;` stands in a text. `guardText_eq_ok`: what the guard of a filter lets pass.
- `Dialect.mem_quoteColumnChars`, `Dialect.mem_quoteTableChars`: quoting a name adds and removes
  nothing but quotes and points.
- `unbroken_listClauseText`, `unbroken_statementText`: clauses and statements put together hold a
  separator if a part does.
- `unbroken_token`, `unbroken_number`: the token of an operator, and numbers as they are written.
- `listParts_subset`, `splitColumns_subset`: what is cut out of a list of names stood in the list.
-/

namespace QueryKit

/-- No statement separator stands in a text. -/
def Unbroken (s : String) : Prop :=
  ';' ∉ s.toList

instance : DecidablePred Unbroken :=
  fun _ => inferInstanceAs (Decidable (_ ∉ _))

namespace Unbroken

variable {s t : String}

theorem subset (h : Unbroken s) (ht : t.toList ⊆ s.toList) : Unbroken t :=
  fun hmem => h (ht hmem)

theorem ofList {l : List Char} (h : Unbroken s) (hl : l ⊆ s.toList) : Unbroken (String.ofList l) :=
  h.subset (by rwa [String.toList_ofList])

theorem append_iff : Unbroken (s ++ t) ↔ Unbroken s ∧ Unbroken t := by
  unfold Unbroken
  rw [String.toList_append, List.mem_append, not_or]

theorem append (hs : Unbroken s) (ht : Unbroken t) : Unbroken (s ++ t) :=
  append_iff.mpr ⟨hs, ht⟩

/-- Fixed words hold no separator. -/
theorem of_glue (h : ∀ c ∈ s.toList, isGlueChar c = true) : Unbroken s :=
  fun hmem => absurd (h _ hmem) (by decide)

end Unbroken

/-- The guard of a filter lets a text pass that holds no separator. -/
theorem Search.guardText_eq_ok {s : String} : Search.guardText s = .ok () ↔ Unbroken s := by
  unfold Search.guardText Text.hasChar Unbroken
  split
  · next h => simpa using h
  · next h => simpa using h

/-! ## Quoting -/

theorem Text.mem_intercalate {c d : Char} (h : c ≠ d) : ∀ {ps : List (List Char)},
    c ∈ [d].intercalate ps ↔ ∃ p ∈ ps, c ∈ p
  | [] => by simp
  | [p] => by simp
  | p :: q :: ps => by
    rw [List.intercalate_cons_cons, List.mem_append, List.mem_append, mem_intercalate h]
    simp [h]

namespace Dialect

variable {d : Dialect} {c : Char} {s p : List Char}

theorem mem_inQuotes (hquote : c ≠ d.quoteChar) : c ∈ d.inQuotes p ↔ c ∈ p := by
  simp [inQuotes, hquote]

theorem mem_quoteTablePart (hquote : c ≠ d.quoteChar) : c ∈ d.quoteTablePart p ↔ c ∈ p := by
  unfold quoteTablePart
  split
  · rfl
  · exact mem_inQuotes hquote

theorem mem_quoteColumnPart (hquote : c ≠ d.quoteChar) : c ∈ d.quoteColumnPart p ↔ c ∈ p := by
  unfold quoteColumnPart
  split
  · rfl
  · exact mem_inQuotes hquote

theorem mem_quoteTableChars (hdot : c ≠ '.') (hquote : c ≠ d.quoteChar) :
    c ∈ d.quoteTableChars s ↔ c ∈ s := by
  unfold quoteTableChars
  split
  · rfl
  · have hparts : c ∈ s ↔ c ∈ ['.'].intercalate (Text.cutAt '.' s) := by rw [Text.intercalate_cutAt]
    rw [hparts, Text.mem_intercalate hdot, Text.mem_intercalate hdot]
    constructor
    · rintro ⟨_, hquoted, hc⟩
      obtain ⟨part, hpart, rfl⟩ := List.mem_map.mp hquoted
      exact ⟨part, hpart, (mem_quoteTablePart hquote).mp hc⟩
    · rintro ⟨part, hpart, hc⟩
      exact ⟨_, List.mem_map_of_mem hpart, (mem_quoteTablePart hquote).mpr hc⟩

theorem mem_quoteColumnChars (hdot : c ≠ '.') (hquote : c ≠ d.quoteChar) :
    c ∈ d.quoteColumnChars s ↔ c ∈ s := by
  unfold quoteColumnChars
  split
  · rfl
  · split
    · split
      · rfl
      · exact mem_quoteColumnPart hquote
    · next table column hdots =>
      split
      · rfl
      · obtain ⟨rfl, -⟩ := Text.splitLast_some hdots
        rw [List.mem_append, List.mem_append, List.mem_cons, List.mem_cons,
          mem_quoteTableChars hdot hquote, mem_quoteColumnPart hquote]

theorem semicolon_ne_quoteChar (d : Dialect) : ';' ≠ d.quoteChar := by
  cases d <;> simp [quoteChar]

/-- A column name in quotes holds a separator if the name does. -/
theorem unbroken_quoteColumnName {n : String} : Unbroken (d.quoteColumnName n) ↔ Unbroken n := by
  unfold Unbroken quoteColumnName
  rw [String.toList_ofList, mem_quoteColumnChars (by decide) d.semicolon_ne_quoteChar]

/-- A table name in quotes holds a separator if the name does. -/
theorem unbroken_quoteTableName {n : String} : Unbroken (d.quoteTableName n) ↔ Unbroken n := by
  unfold Unbroken quoteTableName
  rw [String.toList_ofList, mem_quoteTableChars (by decide) d.semicolon_ne_quoteChar]

end Dialect

/-! ## Clauses -/

theorem unbroken_joinWith {separator : String} (h : Unbroken separator) : ∀ {parts : List String},
    Unbroken (Text.joinWith separator parts) ↔ ∀ p ∈ parts, Unbroken p
  | [] => ⟨fun _ => nofun, fun _ => nofun⟩
  | [_] => List.forall_mem_singleton.symm
  | s :: t :: parts => by
    rw [Text.joinWith, Unbroken.append_iff, Unbroken.append_iff, unbroken_joinWith h,
      List.forall_mem_cons (a := s), and_iff_left h]

theorem unbroken_statementText {clauses : List String} :
    Unbroken (statementText clauses []) ↔ ∀ s ∈ clauses, Unbroken s := by
  change Unbroken (Text.joinWith " " (clauses.filter (· ≠ ""))) ↔ _
  rw [unbroken_joinWith (by decide)]
  refine ⟨fun h s hs => ?_, fun h s hs => h s (List.mem_filter.mp hs).1⟩
  by_cases hempty : s = ""
  · rw [hempty]
    decide
  · exact h s (List.mem_filter.mpr ⟨hs, by simpa using hempty⟩)

theorem unbroken_listClauseText {keyword : String} (h : Unbroken keyword) (items : List String) :
    Unbroken (listClauseText keyword items) ↔ ∀ s ∈ items, Unbroken s := by
  unfold listClauseText
  split
  · next hempty =>
    rw [List.isEmpty_iff.mp hempty]
    exact ⟨fun _ => nofun, fun _ => by decide⟩
  · rw [Unbroken.append_iff, Unbroken.append_iff, unbroken_joinWith (by decide)]
    exact and_iff_right ⟨h, by decide⟩

theorem unbroken_orderNameText {d : Dialect} {name : String} {direction : SortDirection} :
    Unbroken (orderNameText d name direction) ↔ Unbroken name := by
  have hcolumn : Unbroken (d.columnName name) ↔ Unbroken name := by
    unfold Dialect.columnName
    split
    · rfl
    · exact Dialect.unbroken_quoteColumnName
  cases direction with
  | asc => exact hcolumn
  | desc => exact Unbroken.append_iff.trans ((and_iff_left (by decide)).trans hcolumn)

/-! ## Operators -/

namespace Text

theorem trimChars_subset (s : List Char) : trimChars s ⊆ s := by
  intro c hc
  have hend : c ∈ (trimStart s).reverse.dropWhile isBlank := List.mem_reverse.mp hc
  have hstart := List.mem_reverse.mp ((List.dropWhile_sublist isBlank).subset hend)
  exact (List.dropWhile_sublist isBlank).subset hstart

end Text

/-- An operator's token holds no separator if the operator as it is written does not. -/
theorem unbroken_token {s : String} (h : Unbroken s) : Unbroken (Operator.parse s).token := by
  unfold Unbroken Operator.parse
  rw [String.toList_ofList]
  exact fun hc => h (Text.trimChars_subset _ (Text.mem_toUpper (by decide) (by decide) hc))

/-! ## Numbers -/

namespace Decimal

/-- The characters of numbers are those of fixed words. -/
theorem natRepr_glue (n : Nat) : ∀ c ∈ (Nat.repr n).toList, isGlueChar c = true :=
  List.all_eq_true.mp (FragmentLaw.isGlue_repr n).2

theorem withPoint_glue {ds : List Char} (h : ∀ c ∈ ds, isGlueChar c = true) (k : Nat) :
    ∀ c ∈ withPoint ds k, isGlueChar c = true := by
  have htake : ∀ c ∈ ds.take k, isGlueChar c = true := fun c hc => h c (List.mem_of_mem_take hc)
  unfold withPoint
  split
  · exact htake
  · have hdrop : ∀ c ∈ ds.drop k, isGlueChar c = true := fun c hc => h c (List.mem_of_mem_drop hc)
    exact List.forall_mem_append.mpr ⟨htake, List.forall_mem_cons.mpr ⟨by decide, hdrop⟩⟩

theorem zeros_glue (n : Nat) : ∀ c ∈ List.replicate n '0', isGlueChar c = true := by
  intro c hc
  rw [List.eq_of_mem_replicate hc]
  decide

theorem positional_glue (style : DecimalStyle) (d : Decimal) :
    ∀ c ∈ positional style d, isGlueChar c = true := by
  have hdigits := natRepr_glue d.digits
  unfold positional
  dsimp only
  split
  · refine List.forall_mem_append.mpr ⟨List.forall_mem_append.mpr ⟨hdigits, zeros_glue _⟩, ?_⟩
    split <;> exact List.all_eq_true.mp (by decide)
  · split
    · exact withPoint_glue hdigits _
    · refine List.forall_mem_cons.mpr ⟨by decide, List.forall_mem_cons.mpr ⟨by decide, ?_⟩⟩
      exact List.forall_mem_append.mpr ⟨zeros_glue _, hdigits⟩

theorem scientific_glue (d : Decimal) (lead : Int) :
    ∀ c ∈ scientific d lead, isGlueChar c = true := by
  refine List.forall_mem_append.mpr ⟨withPoint_glue (natRepr_glue _) 1, ?_⟩
  refine List.forall_mem_cons.mpr ⟨by decide, List.forall_mem_cons.mpr ⟨?_, natRepr_glue _⟩⟩
  split <;> decide

theorem writeFinite_glue (f : BinaryFormat) (style : DecimalStyle) (negative : Bool) (m : Nat)
    (e : Int) : ∀ c ∈ (writeFinite f style negative m e).toList, isGlueChar c = true := by
  unfold writeFinite
  rw [String.toList_ofList]
  refine List.forall_mem_append.mpr ⟨?_, ?_⟩
  · cases negative <;> exact List.all_eq_true.mp (by decide)
  · split
    · exact positional_glue _ _
    · unfold writeDigits
      dsimp only
      split
      · exact scientific_glue _ _
      · exact positional_glue _ _

end Decimal

theorem intRepr_glue : ∀ n : Int, ∀ c ∈ (Int.repr n).toList, isGlueChar c = true
  | .ofNat n => Decimal.natRepr_glue n
  | .negSucc n => by
    change ∀ c ∈ ("-" ++ Nat.repr (n + 1)).toList, isGlueChar c = true
    rw [String.toList_append]
    exact List.forall_mem_append.mpr ⟨List.all_eq_true.mp (by decide), Decimal.natRepr_glue _⟩

/-- A number of a document is written without a separator. -/
theorem unbroken_number (n : JsonNumber) : Unbroken (Value.ofJsonNumber n).toPlainString := by
  unfold Value.ofJsonNumber
  split
  · next i _ =>
    rw [Value.toPlainString]
    exact .of_glue (intRepr_glue _)
  · rw [Value.toPlainString]
    unfold Binary.toPlainString
    split
    · decide
    · split <;> decide
    · exact .of_glue (Decimal.writeFinite_glue _ _ _ _ _)

/-! ## Lists of names -/

theorem Search.listParts_subset {s : String} {part : List Char} (h : part ∈ listParts s) :
    part ⊆ s.toList := by
  obtain ⟨cut, hcut, rfl⟩ := List.mem_map.mp (List.mem_filter.mp h).1
  exact List.Subset.trans (Text.trimChars_subset cut) (Text.subset_of_mem_cutAt hcut)

theorem splitColumns_subset {s part : String} (h : part ∈ splitColumns s) :
    part.toList ⊆ s.toList := by
  obtain ⟨chars, hchars, rfl⟩ := List.mem_map.mp h
  obtain ⟨cut, hcut, rfl⟩ := List.mem_map.mp (List.mem_filter.mp hchars).1
  rw [String.toList_ofList]
  refine List.Subset.trans (Text.trimChars_subset cut) ?_
  split at hcut
  · rw [List.mem_singleton.mp hcut]
    exact List.Subset.refl _
  · exact Text.subset_of_mem_cutAt hcut

theorem Search.splitLastBlank_subset {s before word : List Char}
    (h : splitLastBlank s = some (before, word)) : before ⊆ s := by
  unfold splitLastBlank at h
  split at h
  · cases h
  · next b rest hrest =>
    cases h
    intro c hc
    have hmem : c ∈ s.reverse.dropWhile (!Text.isBlank ·) :=
      hrest ▸ List.mem_cons_of_mem b (List.mem_reverse.mp hc)
    exact List.mem_reverse.mp ((List.dropWhile_sublist _).subset hmem)

end QueryKit
