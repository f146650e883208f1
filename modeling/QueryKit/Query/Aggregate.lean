import QueryKit.Query.Clauses

/-!
# Aggregates of a query

- `Query.scalarQuery`: the query that computes one expression, such as `COUNT(*)`, over a query. The
  select list of a plain query is replaced; a query with DISTINCT, GROUP BY, HAVING or UNION becomes a
  subquery.
-/

namespace QueryKit.Query

/-- Whether replacing the select list of a query keeps its rows apart from their columns. -/
def isPlain (q : Query) : Bool :=
  !q.distinct && q.groupBy.isEmpty && q.having.isNone && q.unions.isEmpty

/-- The query that computes an expression over the rows of a query. -/
def scalarQuery (q : Query) (expression : String) : Query :=
  let select := [⟨none, .expr (.text expression)⟩]
  if q.isPlain then { q with select, orderBy := [], limit := none, offset := none }
  else
    { Query.empty with
      select, tables := [⟨some "c", .expr (.query q)⟩], share := q.share, cache := q.cache }

end QueryKit.Query
