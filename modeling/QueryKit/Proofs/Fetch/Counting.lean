import QueryKit.Proofs.Fetch.Window
import QueryKit.Proofs.Filter.Compiled

/-!
# COUNT statements

- `Query.unlimited`: a query without LIMIT and OFFSET. `Query.countQuery` counts its rows.
- `renderQuery_ok`: the clauses of a statement that compiles.
- `CountText`: what the text of a COUNT statement is made of (`countText_of_ok`). It has the clauses
  of the query, and neither a limit nor an offset.
-/

namespace QueryKit

open Compile

/-- The query without its window. -/
def Query.unlimited (q : Query) : Query :=
  (q.withLimit none).withOffset none

/-- The query that counts the rows of all pages. -/
def Query.countQuery (q : Query) (argument : String) : Query :=
  q.unlimited.scalarQuery ("COUNT(" ++ argument ++ ")")

/-- Without a window, the query alone stands in front of its UNION members. -/
theorem renderQuery_unlimited (c : Compiler) (q : Query) :
    renderQuery c q.unlimited = (do
      let text ← renderQuery c q.operand
      let unions ← renderUnions c q.unions
      return unionsText text unions) := by
  cases q with
  | mk select option distinct tables joins condition groupBy having orderBy l o unions params =>
    simp only [Query.unlimited, Query.withLimit, Query.withOffset, Query.operand, renderQuery,
      renderUnions, bind_assoc]
    refine bind_congr fun _ => bind_congr fun columns => bind_congr fun tables => ?_
    refine bind_congr fun joins => bind_congr fun condition => bind_congr fun groups => ?_
    refine bind_congr fun having => bind_congr fun orders => ?_
    rw [← Compile.pure_eq, pure_bind, pure_bind]
    rfl

/-- The clauses of a statement that compiles. -/
theorem renderQuery_ok {c : Compiler} {q : Query} {sql : String} {bs : List Binding}
    (h : renderQuery c q = .ok (sql, bs)) :
    ∃ columns tables joins condition groups having orders unions,
      sql = statementText
        [selectText q.distinct q.selectOption columns.1, listClauseText "FROM" tables.1,
          Text.joinWith " " joins.1, clauseText "WHERE" condition.1,
          listClauseText "GROUP BY" groups.1, clauseText "HAVING" having.1,
          listClauseText "ORDER BY" orders.1, limitText c.dialect q.limit q.offset] unions.1 ∧
      renderSelect c q.select = .ok columns ∧ renderTables c q.tables = .ok tables ∧
      renderJoins c q.joins = .ok joins ∧ renderClause c q.condition = .ok condition ∧
      renderGroups c q.groupBy = .ok groups ∧ renderClause c q.having = .ok having ∧
      renderOrders c q.orderBy = .ok orders ∧ renderUnions c q.unions = .ok unions := by
  cases q with
  | mk select option distinct tables joins condition groupBy having orderBy l o unions params =>
    rw [renderQuery] at h
    obtain ⟨_, _, _, -, h, -⟩ := bind_ok h
    obtain ⟨columns, _, _, hcolumns, h, -⟩ := bind_ok h
    obtain ⟨tables, _, _, htables, h, -⟩ := bind_ok h
    obtain ⟨joins, _, _, hjoins, h, -⟩ := bind_ok h
    obtain ⟨condition, _, _, hcondition, h, -⟩ := bind_ok h
    obtain ⟨groups, _, _, hgroups, h, -⟩ := bind_ok h
    obtain ⟨having, _, _, hhaving, h, -⟩ := bind_ok h
    obtain ⟨orders, _, _, horders, h, -⟩ := bind_ok h
    obtain ⟨unions, _, _, hunions, h, -⟩ := bind_ok h
    cases h
    exact ⟨_, _, _, _, _, _, _, _, rfl, hcolumns, htables, hjoins, hcondition, hgroups, hhaving,
      horders, hunions⟩

/-- Raw text that is selected is printed as it is. -/
theorem renderSelect_text {c : Compiler} {e : String} {columns : List String} {bs : List Binding}
    (h : renderSelect c [⟨none, .expr (.text e)⟩] = .ok (columns, bs)) : columns = [e] := by
  rw [renderSelect] at h
  obtain ⟨sql, _, _, hsql, hlast, -⟩ := bind_ok h
  obtain ⟨_, hraw, -⟩ := Compiler.through_done hsql
  cases hraw
  cases hlast
  rfl

/-- A subquery in the FROM clause stands in parentheses, with its alias behind it. -/
theorem renderTables_query {c : Compiler} {label : String} {q : Query} {text : String}
    {bs cs : List Binding} {tables : List String} (hq : renderQuery c q = .ok (text, bs))
    (h : renderTables c [⟨some label, .expr (.query q)⟩] = .ok (tables, cs)) :
    tables = ["(" ++ text ++ ") " ++ c.dialect.quoteTableName label] := by
  rw [renderTables] at h
  obtain ⟨part, _, _, hpart, hlast, -⟩ := bind_ok h
  rw [renderTable] at hpart
  obtain ⟨sql, _, _, hsql, hend, -⟩ := bind_ok hpart
  obtain ⟨_, hquery, -⟩ := Compiler.through_done hsql
  obtain ⟨inner, _, _, hinner, hpure, -⟩ := bind_ok hquery
  cases hq.symm.trans hinner
  cases hpure
  cases hend
  cases hlast
  simp [tableExprText, String.append_assoc]

/-- A statement without grouping, window and UNION members. -/
theorem statementText_plain (d : Dialect) (select tables joins condition orders : String) :
    statementText [select, tables, joins, condition, listClauseText "GROUP BY" [],
        clauseText "HAVING" "", orders, limitText d none none] [] =
      clausesText (select :: ([tables, joins, condition] ++ [orders])) := by
  change clausesText ([select, tables, joins, condition] ++ ["", "", orders, ""]) =
    clausesText ([select, tables, joins, condition] ++ [orders])
  simp [clausesText, List.filter_cons]

theorem clausesText_pair {first last : String} (hfirst : first ≠ "") (hlast : last ≠ "") :
    clausesText [first, last, "", ""] = first ++ " " ++ last := by
  simp [clausesText, hfirst, hlast, Text.joinWith, String.append_assoc]

theorem listClauseText_ne_empty (keyword part : String) :
    listClauseText keyword [part] ≠ "" := by
  have htext : listClauseText keyword [part] = keyword ++ " " ++ part := rfl
  intro h
  rw [htext] at h
  simpa [String.length_append] using congrArg String.length h

/-- A plain statement without a window has no more than its select list, its tables with their
joins, its condition and its order. -/
theorem renderQuery_plain {c : Compiler} {q : Query} {sql : String} {bs : List Binding}
    (h : renderQuery c q = .ok (sql, bs)) (hq : q.isPlain = true) (hlimit : q.limit = none)
    (hoffset : q.offset = none) :
    ∃ columns tables joins condition orders,
      sql = clausesText (selectText false q.selectOption columns.1 ::
        ([listClauseText "FROM" tables.1, Text.joinWith " " joins.1,
          clauseText "WHERE" condition.1] ++ [listClauseText "ORDER BY" orders.1])) ∧
      renderSelect c q.select = .ok columns ∧ renderTables c q.tables = .ok tables ∧
      renderJoins c q.joins = .ok joins ∧ renderClause c q.condition = .ok condition ∧
      renderOrders c q.orderBy = .ok orders := by
  simp only [Query.isPlain, Bool.and_eq_true, Bool.not_eq_true', List.isEmpty_iff,
    Option.isNone_iff_eq_none] at hq
  obtain ⟨⟨⟨hdistinct, hgroup⟩, hhaving⟩, hunion⟩ := hq
  obtain ⟨columns, tables, joins, condition, groups, having, orders, unions, rfl, hcolumns,
    htables, hjoins, hcondition, hgroups, hnone, horders, hunions⟩ := renderQuery_ok h
  rw [hgroup] at hgroups
  rw [hhaving] at hnone
  rw [hunion] at hunions
  cases hgroups
  cases hnone
  cases hunions
  rw [hdistinct, hlimit, hoffset]
  exact ⟨columns, tables, joins, condition, orders, statementText_plain c.dialect _ _ _ _ _,
    hcolumns, htables, hjoins, hcondition, horders⟩

/-- In a plain query the count takes the place of the select list, and there is no order. -/
theorem countQuery_plain {q : Query} (hq : q.isPlain = true) (argument : String) :
    q.countQuery argument = { q.unlimited with
      select := [⟨none, .expr (.text ("COUNT(" ++ argument ++ ")"))⟩]
      orderBy := [] } := by
  rw [Query.countQuery, Query.scalarQuery, if_pos (show q.unlimited.isPlain = true from hq)]
  rfl

theorem countText_plain {c : Compiler} {q : Query} {argument text sql : String}
    {bs cs : List Binding} (hq : q.isPlain = true)
    (htext : renderQuery c q.operand = .ok (text, bs))
    (hsql : renderQuery c (q.countQuery argument) = .ok (sql, cs)) :
    ∃ columns parts orders,
      text = clausesText (selectText false q.selectOption columns :: (parts ++ [orders])) ∧
      sql = clausesText
        (selectText false q.selectOption ["COUNT(" ++ argument ++ ")"] :: parts) := by
  have hoperand : q.operand.isPlain = true := by
    simp only [Query.isPlain, Bool.and_eq_true] at hq ⊢
    exact ⟨hq.1, rfl⟩
  rw [countQuery_plain hq] at hsql
  obtain ⟨columns, tables, joins, condition, orders, rfl, -, htables, hjoins, hcondition, -⟩ :=
    renderQuery_plain htext hoperand rfl rfl
  obtain ⟨columns', tables', joins', condition', orders', rfl, hcolumns', htables', hjoins',
    hcondition', horders'⟩ := renderQuery_plain hsql hq rfl rfl
  cases htables.symm.trans htables'
  cases hjoins.symm.trans hjoins'
  cases hcondition.symm.trans hcondition'
  cases horders'
  refine ⟨columns.1, _, listClauseText "ORDER BY" orders.1, rfl, ?_⟩
  rw [renderSelect_text hcolumns']
  exact clausesText_concat_empty [_, _, _, _]

/-- Any other query becomes a subquery as a whole. -/
theorem countQuery_wrapped {q : Query} (hq : q.isPlain = false) (argument : String) :
    q.countQuery argument = { Query.empty with
      select := [⟨none, .expr (.text ("COUNT(" ++ argument ++ ")"))⟩]
      tables := [⟨some "c", .expr (.query q.unlimited)⟩]
      share := q.share
      cache := q.cache } := by
  rw [Query.countQuery, Query.scalarQuery,
    if_neg (show ¬q.unlimited.isPlain = true from Bool.eq_false_iff.mp hq)]
  rfl

theorem countText_wrapped {c : Compiler} {q : Query} {argument text sql : String}
    {bs cs : List Binding} (hq : q.isPlain = false)
    (htext : renderQuery c q.unlimited = .ok (text, bs))
    (hsql : renderQuery c (q.countQuery argument) = .ok (sql, cs)) :
    sql = "SELECT COUNT(" ++ argument ++ ") FROM (" ++ text ++ ") " ++
      c.dialect.quoteTableName "c" := by
  rw [countQuery_wrapped hq] at hsql
  obtain ⟨columns, tables, joins, condition, groups, having, orders, unions, rfl, hcolumns, htables,
    hjoins, hcondition, hgroups, hhaving, horders, hunions⟩ := renderQuery_ok hsql
  cases hjoins
  cases hcondition
  cases hgroups
  cases hhaving
  cases horders
  cases hunions
  rw [renderSelect_text hcolumns, renderTables_query htext htables]
  calc statementText _ []
    _ = clausesText [_, _, "", "", ""] := statementText_plain c.dialect _ _ _ _ _
    _ = clausesText [_, _, "", ""] := clausesText_concat_empty [_, _, _, _]
    _ = selectText false none ["COUNT(" ++ argument ++ ")"] ++ " " ++
          listClauseText "FROM" ["(" ++ text ++ ") " ++ c.dialect.quoteTableName "c"] :=
      clausesText_pair (selectText_ne_empty _ _ _) (listClauseText_ne_empty "FROM" _)
    _ = _ := by
      apply String.toList_inj.mp
      simp [selectText, listClauseText, Text.joinWith, String.toList_append]

/-- The text of a COUNT statement, from the text of the query alone and those of its UNION members.
In a plain query the count takes the place of the select list, and the order is left out; of any
other query the whole text becomes a subquery. -/
def CountText (d : Dialect) (q : Query) (argument text : String) (unions : List String)
    (sql : String) : Prop :=
  if q.isPlain then
    ∃ columns parts orders,
      text = clausesText (selectText false q.selectOption columns :: (parts ++ [orders])) ∧
      sql = clausesText (selectText false q.selectOption ["COUNT(" ++ argument ++ ")"] :: parts)
  else
    sql = "SELECT COUNT(" ++ argument ++ ") FROM (" ++ unionsText text unions ++ ") " ++
      d.quoteTableName "c"

theorem countText_of_ok {c : Compiler} {q : Query} {argument text sql : String}
    {unions : List String} {bs cs ds : List Binding}
    (htext : renderQuery c q.operand = .ok (text, bs))
    (hunions : renderUnions c q.unions = .ok (unions, cs))
    (hsql : renderQuery c (q.countQuery argument) = .ok (sql, ds)) :
    CountText c.dialect q argument text unions sql := by
  unfold CountText
  split
  · next hq => exact countText_plain hq htext hsql
  · next hq =>
    have hinner : renderQuery c q.unlimited = .ok (unionsText text unions, bs ++ cs) := by
      rw [renderQuery_unlimited]
      exact bind_eq_ok htext (bind_pure_eq_ok _ hunions)
    exact countText_wrapped (Bool.eq_false_iff.mpr hq) hinner hsql

end QueryKit
