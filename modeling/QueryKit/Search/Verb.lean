import QueryKit.Error

/-!
# The verbs of a filter

- `FilterVerb`: the clause of a query that an entry of a filter sets.
- `FilterVerb.parse`: a verb by its name, in any letter case and with or without underscores.
- `FilterVerb.expandsNested`: the verbs whose values may hold subqueries and raw expressions.
-/

namespace QueryKit

/-- What an entry of a filter does to a query. -/
inductive FilterVerb where
  | select
  | addSelect
  | from_
  | where_
  | andWhere
  | orWhere
  | filterWhere
  | andFilterWhere
  | orFilterWhere
  | having
  | andHaving
  | orHaving
  | groupBy
  | orderBy
  | limit
  | offset
  | distinct
  | join
  | leftJoin
  | innerJoin
  | rightJoin
  | indexBy
deriving DecidableEq, Repr

namespace FilterVerb

def name : FilterVerb → String
  | select => "Select"
  | addSelect => "AddSelect"
  | from_ => "From"
  | where_ => "Where"
  | andWhere => "AndWhere"
  | orWhere => "OrWhere"
  | filterWhere => "FilterWhere"
  | andFilterWhere => "AndFilterWhere"
  | orFilterWhere => "OrFilterWhere"
  | having => "Having"
  | andHaving => "AndHaving"
  | orHaving => "OrHaving"
  | groupBy => "GroupBy"
  | orderBy => "OrderBy"
  | limit => "Limit"
  | offset => "Offset"
  | distinct => "Distinct"
  | join => "Join"
  | leftJoin => "LeftJoin"
  | innerJoin => "InnerJoin"
  | rightJoin => "RightJoin"
  | indexBy => "IndexBy"

def all : List FilterVerb :=
  [select, addSelect, from_, where_, andWhere, orWhere, filterWhere, andFilterWhere,
    orFilterWhere, having, andHaving, orHaving, groupBy, orderBy, limit, offset, distinct, join,
    leftJoin, innerJoin, rightJoin, indexBy]

/-- A name as it is looked up: without underscores, in small ASCII letters. -/
def lookupForm (s : String) : List Char :=
  (s.toList.filter (· ≠ '_')).map Char.toLower

/-- The verb of a name. -/
def parse (s : String) : Result FilterVerb :=
  match all.find? fun v => lookupForm v.name == lookupForm s with
  | some verb => .ok verb
  | none => .error (.invalidArgument (.unknownVerb s))

/-- Whether the values of a verb may hold subqueries and raw expressions. -/
def expandsNested : FilterVerb → Bool
  | select | addSelect | from_ | where_ | andWhere | orWhere | filterWhere | andFilterWhere
  | orFilterWhere => true
  | _ => false

end FilterVerb

end QueryKit
