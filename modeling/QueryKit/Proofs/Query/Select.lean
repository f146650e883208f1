import Mathlib.Data.List.Induction
import Mathlib.Data.List.Nodup
import QueryKit.Query.Clauses

/-!
# What a select list holds

- `ColumnItem.key?`: what a named column is known by, its alias with its name. `selectKeys`: the
  named columns of a list, by their keys.
- `SelectCall`: a call that sets the select list or adds to it. Of a sequence of calls those since
  the last one that set the list count (`SelectCall.standing`).
- `timesShown`: how often the list that is made has a column. The first call that passes the column
  decides: a column with an alias stands there as often as this call repeats it.
- `Query.selected_distinct_iff`: when no column stands in the list twice.
-/

namespace QueryKit

/-- The alias, if there is one, and the name of a named column. -/
def ColumnItem.key? : ColumnItem → Option (Option String × String)
  | ⟨label, .name name⟩ => some (label, name)
  | ⟨_, .expr _⟩ => none

/-- The keys of the named columns of a list, in its order. -/
def selectKeys (items : List ColumnItem) : List (Option String × String) :=
  items.filterMap ColumnItem.key?

@[simp] theorem selectKeys_append (l m : List ColumnItem) :
    selectKeys (l ++ m) = selectKeys l ++ selectKeys m :=
  List.filterMap_append

theorem mem_selectKeys {items : List ColumnItem} {key : Option String × String} :
    key ∈ selectKeys items ↔ ∃ item ∈ items, item.key? = some key :=
  List.mem_filterMap

namespace Query

/-! ## One call -/

/-- A named column is selected if a column of its alias and name is. -/
theorem isSelected_name (selected : List ColumnItem) (label : Option String) (name : String) :
    isSelected selected ⟨label, .name name⟩ = true ↔ (label, name) ∈ selectKeys selected := by
  rw [isSelected, List.any_eq_true, mem_selectKeys]
  refine exists_congr fun s => and_congr_right fun _ => ?_
  obtain ⟨l, n | e⟩ := s
  · simp [Column.sameAs, ColumnItem.key?]
  · simp [Column.sameAs, ColumnItem.key?]

/-- A named column at the end of a call is dropped if it was selected before the call, or if it has
no alias and the call has it already. Computed columns are kept, and have no key. -/
theorem selectKeys_uniqueColumns_concat (selected columns : List ColumnItem) (item : ColumnItem) :
    selectKeys (uniqueColumns selected (columns ++ [item])) =
      match item.key? with
      | none => selectKeys (uniqueColumns selected columns)
      | some key =>
        if key ∈ selectKeys selected ∨
            key.1 = none ∧ key ∈ selectKeys (uniqueColumns selected columns) then
          selectKeys (uniqueColumns selected columns)
        else selectKeys (uniqueColumns selected columns) ++ [key] := by
  have hconcat : uniqueColumns selected (columns ++ [item]) =
      if isSelected (if item.label.isSome then selected
          else selected ++ uniqueColumns selected columns) item then
        uniqueColumns selected columns
      else uniqueColumns selected columns ++ [item] := by
    rw [uniqueColumns, List.foldl_append]
    rfl
  rw [hconcat, apply_ite selectKeys, selectKeys_append]
  obtain ⟨label, name | e⟩ := item
  · have hkept : isSelected (if label.isSome then selected
          else selected ++ uniqueColumns selected columns) ⟨label, .name name⟩ = true ↔
        (label, name) ∈ selectKeys selected ∨
          label = none ∧ (label, name) ∈ selectKeys (uniqueColumns selected columns) := by
      cases label <;> simp [isSelected_name]
    simp only [hkept, ColumnItem.key?]
    rfl
  · have hnone : selectKeys [⟨label, .expr e⟩] = [] := rfl
    rw [hnone, List.append_nil, ite_self]
    rfl

/-- How often a column stands in a call with one more column. -/
theorem count_uniqueColumns_concat (selected columns : List ColumnItem) (item : ColumnItem)
    (key : Option String × String) :
    (selectKeys (uniqueColumns selected (columns ++ [item]))).count key =
      if item.key? = some key ∧ key ∉ selectKeys selected ∧
          (key.1 = none → (selectKeys (uniqueColumns selected columns)).count key = 0) then
        (selectKeys (uniqueColumns selected columns)).count key + 1
      else (selectKeys (uniqueColumns selected columns)).count key := by
  rw [selectKeys_uniqueColumns_concat]
  cases hitem : item.key? with
  | none => exact (if_neg (fun h => nomatch h.1)).symm
  | some other =>
    dsimp only
    by_cases hkey : other = key
    · subst hkey
      by_cases hdropped : other ∈ selectKeys selected ∨ other.1 = none ∧
          other ∈ selectKeys (uniqueColumns selected columns)
      · rw [if_pos hdropped, if_neg]
        rintro ⟨-, hnew, hbare⟩
        obtain hold | ⟨halias, hmem⟩ := hdropped
        · exact hnew hold
        · exact List.count_eq_zero.mp (hbare halias) hmem
      · obtain ⟨hnew, hbare⟩ := not_or.mp hdropped
        rw [if_neg hdropped, List.count_append, List.count_singleton_self, if_pos]
        exact ⟨rfl, hnew, fun halias => List.count_eq_zero.mpr fun hmem => hbare ⟨halias, hmem⟩⟩
    · have hother : [other].count key = 0 := List.count_eq_zero.mpr (by simp [Ne.symm hkey])
      have hnot : some other ≠ some key := fun h => hkey (Option.some.inj h)
      rw [if_neg (fun h => hnot h.1 : ¬(some other = some key ∧ _))]
      split
      · rfl
      · rw [List.count_append, hother, Nat.add_zero]

/-- How often a call adds a column: as often as it passes it, a column without an alias at most
once, and not at all if the column was selected before. -/
theorem count_uniqueColumns (selected columns : List ColumnItem) (key : Option String × String) :
    (selectKeys (uniqueColumns selected columns)).count key =
      if key ∈ selectKeys selected then 0
      else if key.1 = none then min 1 ((selectKeys columns).count key)
      else (selectKeys columns).count key := by
  induction columns using List.reverseRecOn with
  | nil => simp [uniqueColumns, selectKeys]
  | append_singleton columns item ih =>
    have hlast : (selectKeys (columns ++ [item])).count key =
        (selectKeys columns).count key + if item.key? = some key then 1 else 0 := by
      cases hitem : item.key? <;> simp [selectKeys, hitem, List.count_append, List.count_cons]
    rw [count_uniqueColumns_concat, hlast]
    by_cases hselected : key ∈ selectKeys selected
    · rw [if_pos hselected] at ih ⊢
      rw [if_neg (fun h => h.2.1 hselected), ih]
    · rw [if_neg hselected] at ih ⊢
      by_cases hitem : item.key? = some key
      · rw [if_pos hitem]
        by_cases halias : key.1 = none
        · rw [if_pos halias] at ih ⊢
          split
          · next hnew =>
            have hzero := hnew.2.2 halias
            omega
          · next hthere =>
            have hsome : (selectKeys (uniqueColumns selected columns)).count key ≠ 0 :=
              fun hzero => hthere ⟨hitem, hselected, fun _ => hzero⟩
            omega
        · rw [if_neg halias] at ih ⊢
          rw [if_pos ⟨hitem, hselected, fun h => absurd h halias⟩, ih]
      · rw [if_neg hitem, if_neg (fun h => hitem h.1), Nat.add_zero, ih]

end Query

/-! ## Sequences of calls -/

/-- A call that sets the select list or adds columns to it. -/
inductive SelectCall where
  | set (columns : List ColumnItem)
  | add (columns : List ColumnItem)

namespace SelectCall

def apply (q : Query) : SelectCall → Query
  | .set columns => q.withSelect columns
  | .add columns => q.addSelect columns

/-- One more call after calls of which the lists `lists` count. -/
def stand (lists : List (List ColumnItem)) : SelectCall → List (List ColumnItem)
  | .set columns => [columns]
  | .add columns => lists ++ [columns]

/-- The lists of the last call that set the select list and of the calls after it. -/
def standing (calls : List SelectCall) : List (List ColumnItem) :=
  calls.foldl stand []

end SelectCall

/-- How often a select list has a column, from the lists that were passed: the first one with the
column decides, and a column without an alias is not repeated. -/
def timesShown (key : Option String × String) : List (List ColumnItem) → Nat
  | [] => 0
  | columns :: lists =>
    if key ∈ selectKeys columns then
      if key.1 = none then 1 else (selectKeys columns).count key
    else timesShown key lists

/-- The column has an alias, and the first list that has the column repeats it. -/
def RepeatsAlias (key : Option String × String) (lists : List (List ColumnItem)) : Prop :=
  key.1 ≠ none ∧ ∃ before columns after, lists = before ++ columns :: after ∧
    (∀ earlier ∈ before, key ∉ selectKeys earlier) ∧ 1 < (selectKeys columns).count key

section Shown

variable {key : Option String × String} {lists : List (List ColumnItem)}

theorem timesShown_pos_iff :
    0 < timesShown key lists ↔ ∃ columns ∈ lists, key ∈ selectKeys columns := by
  induction lists with
  | nil => simp [timesShown]
  | cons columns lists ih =>
    rw [timesShown, List.exists_mem_cons_iff]
    by_cases hkey : key ∈ selectKeys columns
    · have hpos := List.count_pos_iff.mpr hkey
      rw [if_pos hkey]
      split
      · exact iff_of_true Nat.one_pos (.inl hkey)
      · exact iff_of_true hpos (.inl hkey)
    · rw [if_neg hkey, ih]
      exact ⟨.inr, fun h => h.resolve_left hkey⟩

theorem timesShown_bare (h : key.1 = none) : timesShown key lists ≤ 1 := by
  induction lists with
  | nil => exact Nat.zero_le 1
  | cons columns lists ih =>
    rw [timesShown, if_pos h]
    split
    · exact Nat.le_refl 1
    · exact ih

theorem one_lt_timesShown_iff : 1 < timesShown key lists ↔ RepeatsAlias key lists := by
  induction lists with
  | nil => simp [timesShown, RepeatsAlias]
  | cons first lists ih =>
    rw [timesShown]
    constructor
    · intro h
      by_cases hkey : key ∈ selectKeys first
      · rw [if_pos hkey] at h
        split at h
        · omega
        · next halias => exact ⟨halias, [], first, lists, rfl, nofun, h⟩
      · rw [if_neg hkey] at h
        obtain ⟨halias, before, columns, after, rfl, hbefore, hcount⟩ := ih.mp h
        refine ⟨halias, first :: before, columns, after, rfl, ?_, hcount⟩
        exact List.forall_mem_cons.mpr ⟨hkey, hbefore⟩
    · rintro ⟨halias, before, columns, after, hlists, hbefore, hcount⟩
      cases before with
      | nil =>
        obtain ⟨rfl, rfl⟩ := List.cons.inj hlists
        have hkey : key ∈ selectKeys first := List.count_pos_iff.mp (by omega)
        rwa [if_pos hkey, if_neg halias]
      | cons second before =>
        obtain ⟨rfl, hrest⟩ := List.cons.inj hlists
        obtain ⟨hkey, hbefore⟩ := List.forall_mem_cons.mp hbefore
        rw [if_neg hkey]
        exact ih.mpr ⟨halias, before, columns, after, hrest, hbefore, hcount⟩

end Shown

namespace Query

/-- How often a column stands in the list after one more call. -/
theorem count_addSelect (key : Option String × String) (q : Query) (columns : List ColumnItem) :
    (selectKeys (q.addSelect columns).select).count key =
      if key ∈ selectKeys q.select then (selectKeys q.select).count key
      else if key.1 = none then min 1 ((selectKeys columns).count key)
      else (selectKeys columns).count key := by
  rw [addSelect, selectKeys_append, List.count_append, count_uniqueColumns]
  split
  · rfl
  · next hkey => rw [List.count_eq_zero.mpr hkey, Nat.zero_add]

theorem mem_addSelect (key : Option String × String) (q : Query) (columns : List ColumnItem) :
    key ∈ selectKeys (q.addSelect columns).select ↔
      key ∈ selectKeys q.select ∨ key ∈ selectKeys columns := by
  rw [← List.count_pos_iff, count_addSelect]
  by_cases hkey : key ∈ selectKeys q.select
  · rw [if_pos hkey]
    exact iff_of_true (List.count_pos_iff.mpr hkey) (.inl hkey)
  · rw [if_neg hkey, or_iff_right hkey, ← List.count_pos_iff]
    split <;> omega

/-- Columns added list by list: those that the query has keep their number. -/
theorem count_addSelects (key : Option String × String) (q : Query)
    (lists : List (List ColumnItem)) :
    (selectKeys (lists.foldl addSelect q).select).count key =
      if key ∈ selectKeys q.select then (selectKeys q.select).count key
      else timesShown key lists := by
  induction lists generalizing q with
  | nil =>
    rw [List.foldl_nil, timesShown]
    split
    · rfl
    · next hkey => exact List.count_eq_zero.mpr hkey
  | cons columns lists ih =>
    rw [List.foldl_cons, ih, timesShown]
    by_cases hkey : key ∈ selectKeys q.select
    · rw [if_pos ((mem_addSelect key q columns).mpr (.inl hkey)), if_pos hkey, count_addSelect,
        if_pos hkey]
    · rw [if_neg hkey, count_addSelect, if_neg hkey]
      by_cases hlist : key ∈ selectKeys columns
      · have hpos := List.count_pos_iff.mpr hlist
        rw [if_pos ((mem_addSelect key q columns).mpr (.inr hlist)), if_pos hlist]
        split
        · exact Nat.min_eq_left hpos
        · rfl
      · rw [if_neg (fun h => ((mem_addSelect key q columns).mp h).elim hkey hlist), if_neg hlist]

/-- The select list of a new query after a sequence of calls. -/
theorem select_calls (calls : List SelectCall) : (calls.foldl SelectCall.apply .empty).select =
    ((SelectCall.standing calls).foldl addSelect .empty).select := by
  induction calls using List.reverseRecOn with
  | nil => rfl
  | append_singleton calls call ih =>
    rw [SelectCall.standing, List.foldl_append, List.foldl_append]
    cases call with
    | set columns => rfl
    | add columns =>
      change _ = ((SelectCall.standing calls ++ [columns]).foldl addSelect .empty).select
      rw [List.foldl_append]
      exact congrArg (fun selected => selected ++ uniqueColumns selected columns) ih

/-- A select list has every named column that was passed since the list was last set, and no other.
A column without an alias stands in it once. A column with an alias stands in it as often as the
first call that passes it repeats it, so no column stands there twice exactly if no call repeats a
column with an alias that is new to the list. -/
theorem selected_distinct_iff (calls : List SelectCall) :
    let selected := selectKeys (calls.foldl SelectCall.apply .empty).select
    (∀ key, key ∈ selected ↔ ∃ columns ∈ SelectCall.standing calls, key ∈ selectKeys columns) ∧
    (∀ key, selected.count key = timesShown key (SelectCall.standing calls)) ∧
    (∀ name, selected.count (none, name) ≤ 1) ∧
    (selected.Nodup ↔ ∀ key, ¬RepeatsAlias key (SelectCall.standing calls)) := by
  intro selected
  have hcount : ∀ key, selected.count key = timesShown key (SelectCall.standing calls) := by
    intro key
    rw [show selected = _ from congrArg selectKeys (select_calls calls), count_addSelects]
    exact if_neg List.not_mem_nil
  refine ⟨fun key => ?_, hcount, fun name => ?_, ?_⟩
  · rw [← List.count_pos_iff, hcount, timesShown_pos_iff]
  · rw [hcount]
    exact timesShown_bare rfl
  · rw [List.nodup_iff_count_le_one]
    refine forall_congr' fun key => ?_
    rw [hcount, ← one_lt_timesShown_iff, Nat.not_lt]

/-- One call that passes two columns twice, the first one under an alias. -/
def namedTwice : List SelectCall :=
  [.set [⟨some "n", .name "name"⟩, ⟨some "n", .name "name"⟩, .ofName "id", .ofName "id"]]

/-- The column with the alias stands in the list twice, the other one once. -/
theorem namedTwice_repeated :
    selectKeys (namedTwice.foldl SelectCall.apply .empty).select =
      [(some "n", "name"), (some "n", "name"), (none, "id")] ∧
    ¬(selectKeys (namedTwice.foldl SelectCall.apply .empty).select).Nodup := by
  have hrepeats : RepeatsAlias (some "n", "name") (SelectCall.standing namedTwice) :=
    ⟨nofun, [], _, [], rfl, nofun, by decide⟩
  exact ⟨by decide, fun h => (selected_distinct_iff namedTwice).2.2.2.mp h _ hrepeats⟩

end Query

end QueryKit
