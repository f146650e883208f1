import QueryKit.Compile.Alias
import QueryKit.Compile.Condition
import QueryKit.Condition.OperandForm

/-!
# Queries, expressions and conditions as text

One recursion over the query model. Every function binds the values of the parts it renders in the
order in which it renders them.

- `renderOperand`: an operand in one of its roles: as a condition, as the column side of a condition,
  or as a value to be bound.
- `renderExpression`: a fragment, with the builder that is registered for its family.
- `renderQuery`: a SELECT statement, its clauses in the order in which they are written. UNION
  members follow after everything else.
-/

namespace QueryKit

/-- What an operand stands for. -/
inductive Role where
  | condition
  | column
  | bound
deriving DecidableEq, Repr

/-- The text of a value that is not bound. -/
def unboundText (d : Dialect) (role : Role) (v : Value) : String :=
  match role, v with
  | .column, .string s => d.columnName s
  | _, v => v.toPlainString

/-- LIMIT and OFFSET; an offset of zero is left out. Where an offset needs a limit, the largest one
is written. -/
def limitText (d : Dialect) (limit offset : Option Nat) : String :=
  match limit, offset.filter (0 < ·) with
  | some l, some o => "LIMIT " ++ Nat.repr l ++ " OFFSET " ++ Nat.repr o
  | some l, none => "LIMIT " ++ Nat.repr l
  | none, some o =>
    match d with
    | .mysql => "LIMIT " ++ Nat.repr o ++ ", 18446744073709551615"
    | .sqlite => "LIMIT -1 OFFSET " ++ Nat.repr o
    | _ => "OFFSET " ++ Nat.repr o
  | none, none => ""

/-- A named column of a select list. -/
def selectNameText (d : Dialect) (label : Option String) (name : String) : String :=
  match label.filter (· ≠ name) with
  | some a => d.columnName name ++ " AS " ++ d.quoteColumnName a
  | none =>
    if name.toList.contains '(' then name
    else
      match selectAlias? name.toList with
      | some (column, a) =>
        d.quoteColumnName (String.ofList column) ++ " AS " ++ d.quoteColumnName (String.ofList a)
      | none => d.quoteColumnName name

/-- A computed column of a select list. -/
def selectExprText (d : Dialect) (label : Option String) (sql : String) : String :=
  match label with
  | some a => sql ++ " AS " ++ d.quoteColumnName a
  | none => sql

/-- A table name, unless it is a fragment with a parenthesis. -/
def tableName (d : Dialect) (name : String) : String :=
  if name.toList.contains '(' then name else d.quoteTableName name

/-- A named table of a FROM clause or a join. -/
def tableNameText (d : Dialect) (label : Option String) (name : String) : String :=
  match label with
  | some a => tableName d name ++ " " ++ d.quoteTableName a
  | none =>
    if name.toList.contains '(' then name
    else
      match tableAlias? name.toList with
      | some (table, a) =>
        d.quoteTableName (String.ofList table) ++ " " ++ d.quoteTableName (String.ofList a)
      | none => d.quoteTableName name

/-- A computed table of a FROM clause or a join. -/
def tableExprText (d : Dialect) (label : Option String) (sql : String) : String :=
  match label with
  | some a => sql ++ " " ++ d.quoteTableName a
  | none => sql

def JoinType.word : JoinType → String
  | .inner => "INNER"
  | .left => "LEFT"
  | .right => "RIGHT"
  | .full => "FULL OUTER"
  | .cross => "CROSS"

def SortDirection.word : SortDirection → String
  | .asc => "ASC"
  | .desc => "DESC"

/-- A named item of an ORDER BY clause; ascending order is the default and is not written. -/
def orderNameText (d : Dialect) (name : String) (direction : SortDirection) : String :=
  match direction with
  | .asc => d.columnName name
  | .desc => d.columnName name ++ " DESC"

/-- A clause: its keyword and its text, or nothing. -/
def clauseText (keyword text : String) : String :=
  if text = "" then "" else keyword ++ " " ++ text

/-- A clause over a list: its keyword and the items between commas, or nothing. -/
def listClauseText (keyword : String) (items : List String) : String :=
  if items.isEmpty then "" else keyword ++ " " ++ Text.joinWith ", " items

def selectText (distinct : Bool) (option : Option String) (columns : List String) : String :=
  (if distinct then "SELECT DISTINCT" else "SELECT") ++
    (match option with
      | some o => " " ++ o
      | none => "") ++
    " " ++ (if columns.isEmpty then "*" else Text.joinWith ", " columns)

def joinText (type : JoinType) (table condition : String) : String :=
  type.word ++ " JOIN " ++ table ++ (if condition = "" then "" else " ON " ++ condition)

def unionText (all : Bool) (sql : String) : String :=
  (if all then "UNION ALL" else "UNION") ++ " ( " ++ sql ++ " )"

/-- The clauses of a statement, and its UNION members behind it in parentheses. -/
def statementText (clauses : List String) (unions : List String) : String :=
  let sql := Text.joinWith " " (clauses.filter (· ≠ ""))
  if unions.isEmpty then sql else "(" ++ sql ++ ") " ++ Text.joinWith " " unions

mutual

/-- An operand in one of its roles. -/
def renderOperand (c : Compiler) (role : Role) : Operand → Compile String
  | .value v =>
    match role with
    | .bound => .push v
    | role => .pure (unboundText c.dialect role v)
  | .list items =>
    match role with
    | .bound =>
      match plainValues items with
      | some vs => .push (.array vs)
      | none => .fault .notPlainValues
    | _ => renderForm c items
  | .map entries =>
    match role with
    | .bound => .fault .hashAsValue
    | _ => if entries.isEmpty then .pure "" else c.hash (renderHash c entries)
  | .expr e => renderExpression c e

/-- A condition in operator form. -/
def renderForm (c : Compiler) : List Operand → Compile String
  | [] => .pure ""
  | head :: operands =>
    match head.asString with
    | none => .fault .missingOperator
    | some token =>
      let op := Operator.parse token
      match op.kind with
      | .not =>
        match operands with
        | [o] => c.negation (renderOperand c .condition o)
        | _ => .fault (.oneOperand op.token)
      | .conjunction conj => c.conjunction conj (renderConditions c operands)
      | .between negated =>
        match operands with
        | column :: low :: high :: _ =>
          c.between negated (renderOperand c .column column) (renderOperand c .bound low)
            (renderOperand c .bound high)
        | _ => .fault (.threeOperands op.token)
      | .isIn negated =>
        match operands with
        | column :: values :: _ =>
          c.membership (renderMemberColumn c (.of values) column) fun column =>
            renderMembership c negated column values
        | _ => .fault (.twoOperands op.token)
      | .like negated combine =>
        match operands with
        | column :: values :: r =>
          c.like negated combine values.isEmpty (renderOperand c .column column)
            (renderPatterns c (.ofOperand r.head?) values)
        | _ => .fault (.twoOperands op.token)
      | .isExists negated =>
        match operands with
        | .expr (.query q) :: _ => c.existence negated (renderQuery c q)
        | _ => .fault .notASubquery
      | .simple =>
        match operands with
        | [column, v] =>
          c.comparison op (renderOperand c .column column) v.isNull (renderOperand c .bound v)
        | _ => .fault (.twoOperands op.token)

/-- The operands of AND or OR. -/
def renderConditions (c : Compiler) : List Operand → Compile (List String)
  | [] => .pure []
  | o :: os => do
    let part ← renderOperand c .condition o
    let parts ← renderConditions c os
    return part :: parts

/-- The columns of a hash with their tests. A list of values or a subquery is a membership test. -/
def renderHash (c : Compiler) : List (String × Operand) → Compile (List String)
  | [] => .pure []
  | (name, o) :: es => do
    let column := c.dialect.columnName name
    let part ←
      if isListed o then
        c.membership (.pure (.single column (some name))) fun column =>
          renderMembership c false column o
      else if o.isNull then .pure (column ++ " IS NULL")
      else do
        let place ← renderOperand c .bound o
        pure (column ++ " = " ++ place)
    let parts ← renderHash c es
    return part :: parts

/-- A list of columns in front of values: a single column stands for itself. -/
def renderColumns (c : Compiler) : List Operand → Compile MemberColumn
  | [] => .pure (.single "" none)
  | [column] => do
    let text ← renderOperand c .column column
    return .single text column.asString
  | columns => .pure (.composite (columns.map memberName))

/-- The column side of a membership test in values of a shape. -/
def renderMemberColumn (c : Compiler) (source : MemberSource) : Operand → Compile MemberColumn
  | .value v => .pure (.single (unboundText c.dialect .column v) v.asString)
  | .list columns =>
    match source with
    | .query => .pure (.single (quotedNames c.dialect (columns.map memberName)) none)
    | .expression => do
      let text ← renderForm c columns
      return .single text none
    | .values => renderColumns c columns
  | .map entries => do
    let text ← if entries.isEmpty then .pure "" else c.hash (renderHash c entries)
    return .single text none
  | .expr e => do
    let text ← renderExpression c e
    return .single text none

/-- A column among values. -/
def renderMembership (c : Compiler) (negated : Bool) (column : MemberColumn) :
    Operand → Compile String
  | .expr (.query q) => do
    let sql ← renderQuery c q
    return inFragmentText (column.text c.dialect) negated sql
  | .expr e => do
    let sql ← renderExpression c e
    return inFragmentText (column.text c.dialect) negated sql
  | .list items =>
    match column with
    | .composite names => do
      let tuples ← renderTuples c names items
      return inTuplesText c.dialect names negated tuples
    | .single text name => do
      let members ← renderMembers c name items
      return memberText text negated members
  | .value (.array vs) =>
    match column with
    | .composite names => do
      let tuples ← pushTuples names vs
      return inTuplesText c.dialect names negated tuples
    | .single text _ => do
      let members ← pushMembers vs
      return memberText text negated members
  | .value v =>
    match column with
    | .composite names =>
      .pure (inTuplesText c.dialect names negated [tupleText (names.map fun _ => none)])
    | .single text _ => do
      let member ← pushMember v
      return memberText text negated [member]
  | .map entries =>
    match column with
    | .composite names => do
      let places ← names.mapM fun name => renderNamed c name entries
      return inTuplesText c.dialect names negated [tupleText places]
    | .single text (some name) => do
      let member ← renderNamed c name entries
      return memberText text negated [member]
    | .single _ none => .fault .hashAsValue

/-- The members of a list of values. A map stands for the value that it gives the column. -/
def renderMembers (c : Compiler) (name : Option String) :
    List Operand → Compile (List (Option String))
  | [] => .pure []
  | o :: os => do
    let member ← match o with
      | .map entries =>
        match name with
        | some name => renderNamed c name entries
        | none => .fault .hashAsValue
      | other =>
        if other.isNull then .pure none
        else do
          let place ← renderOperand c .bound other
          pure (some place)
    let members ← renderMembers c name os
    return member :: members

/-- The rows of a membership test over several columns. -/
def renderTuples (c : Compiler) (names : List String) : List Operand → Compile (List String)
  | [] => .pure []
  | row :: rows => do
    let places ← match row with
      | .map entries => names.mapM fun name => renderNamed c name entries
      | .list items => renderPlaces c names items
      | .value (.array vs) => pushTuple names vs
      | _ => .pure (names.map fun _ => none)
    let tuples ← renderTuples c names rows
    return tupleText places :: tuples

/-- The values of a row, place by place. -/
def renderPlaces (c : Compiler) : List String → List Operand → Compile (List (Option String))
  | [], _ => .pure []
  | names, [] => .pure (names.map fun _ => none)
  | _ :: names, o :: os => do
    let place ←
      if o.isNull then .pure none
      else do
        let place ← renderOperand c .bound o
        pure (some place)
    let places ← renderPlaces c names os
    return place :: places

/-- The value of a name in a map; a missing value and null are the same. -/
def renderNamed (c : Compiler) (name : String) :
    List (String × Operand) → Compile (Option String)
  | [] => .pure none
  | (key, o) :: es =>
    if key = name then
      if o.isNull then .pure none
      else do
        let place ← renderOperand c .bound o
        return some place
    else renderNamed c name es

/-- The patterns of a LIKE condition. -/
def renderPatterns (c : Compiler) (escape : LikeEscape) : Operand → Compile (List String)
  | .list items => renderPatternList c escape items
  | .value (.array vs) => pushPatterns escape vs
  | .value v => do
    let place ← pushPattern escape v
    return [place]
  | .expr e => do
    let sql ← renderExpression c e
    return [sql]
  | .map _ => .fault .likePattern

def renderPatternList (c : Compiler) (escape : LikeEscape) :
    List Operand → Compile (List String)
  | [] => .pure []
  | o :: os => do
    let place ← match o with
      | .expr e => renderExpression c e
      | .value v => pushPattern escape v
      | _ => .fault .likePattern
    let places ← renderPatternList c escape os
    return place :: places

/-- A fragment of a statement. -/
def renderExpression (c : Compiler) : Expression → Compile String
  | .raw sql params =>
    c.through .raw fun _ => do
      Compile.emit params.bindings
      return sql
  | .typed v type => c.through .typed fun _ => .pushParam ⟨v, type⟩
  | .arrayOfValues values elementType dimension =>
    c.through .array fun _ => pushArray elementType dimension values
  | .arrayOfQuery q elementType dimension =>
    c.through .array fun _ => do
      let sql ← renderQuery c q
      return "ARRAY(" ++ sql ++ ")" ++ arrayTypeText elementType dimension
  | .json j jsonType => c.through .json fun b => pushJson b.cast j jsonType
  | .query q =>
    c.through .query fun _ => do
      let sql ← renderQuery c q
      return "(" ++ sql ++ ")"
  | .condition cond => renderCondition c cond

/-- A condition whose parts are told apart. -/
def renderCondition (c : Compiler) : Condition → Compile String
  | .hash entries => c.hash (renderHash c entries)
  | .simple column op v =>
    c.comparison op (renderOperand c .column column) v.isNull (renderOperand c .bound v)
  | .not o => c.negation (renderOperand c .condition o)
  | .conjunction conj operands => c.conjunction conj (renderConditions c operands)
  | .between column negated low high =>
    c.between negated (renderOperand c .column column) (renderOperand c .bound low)
      (renderOperand c .bound high)
  | .isIn column negated values =>
    c.membership (renderMemberColumn c (.of values) column) fun column =>
      renderMembership c negated column values
  | .like column negated combine values escape =>
    c.like negated combine values.isEmpty (renderOperand c .column column)
      (renderPatterns c escape values)
  | .isExists negated q => c.existence negated (renderQuery c q)

/-- The columns of a select list. -/
def renderSelect (c : Compiler) : List ColumnItem → Compile (List String)
  | [] => .pure []
  | ⟨label, column⟩ :: items => do
    let part ← match column with
      | .name name => .pure (selectNameText c.dialect label name)
      | .expr e => do
        let sql ← renderExpression c e
        pure (selectExprText c.dialect label sql)
    let parts ← renderSelect c items
    return part :: parts

/-- The tables of a FROM clause. -/
def renderTables (c : Compiler) : List ColumnItem → Compile (List String)
  | [] => .pure []
  | item :: items => do
    let part ← renderTable c item
    let parts ← renderTables c items
    return part :: parts

/-- One table, named or computed. -/
def renderTable (c : Compiler) : ColumnItem → Compile String
  | ⟨label, .name name⟩ => .pure (tableNameText c.dialect label name)
  | ⟨label, .expr e⟩ => do
    let sql ← renderExpression c e
    return tableExprText c.dialect label sql

def renderJoins (c : Compiler) : List Join → Compile (List String)
  | [] => .pure []
  | ⟨type, table, on⟩ :: joins => do
    let table ← renderTable c table
    let condition ← renderClause c on
    let parts ← renderJoins c joins
    return joinText type table condition :: parts

/-- A condition that may be missing. -/
def renderClause (c : Compiler) : Option Operand → Compile String
  | none => .pure ""
  | some o => renderOperand c .condition o

def renderGroups (c : Compiler) : List Column → Compile (List String)
  | [] => .pure []
  | column :: columns => do
    let part ← match column with
      | .name name => .pure (c.dialect.columnName name)
      | .expr e => renderExpression c e
    let parts ← renderGroups c columns
    return part :: parts

def renderOrders (c : Compiler) : List OrderItem → Compile (List String)
  | [] => .pure []
  | ⟨column, direction⟩ :: items => do
    let part ← match column with
      | .name name => .pure (orderNameText c.dialect name direction)
      | .expr e => renderExpression c e
    let parts ← renderOrders c items
    return part :: parts

def renderUnions (c : Compiler) : List UnionMember → Compile (List String)
  | [] => .pure []
  | ⟨q, all⟩ :: unions => do
    let sql ← renderQuery c q
    let parts ← renderUnions c unions
    return unionText all sql :: parts

/-- A SELECT statement. -/
def renderQuery (c : Compiler) : Query → Compile String
  | ⟨select, selectOption, distinct, tables, joins, condition, groupBy, having, orderBy, limit,
      offset, unions, params, _, _, _, _⟩ => do
    Compile.emit params.bindings
    let columns ← renderSelect c select
    let tables ← renderTables c tables
    let joins ← renderJoins c joins
    let condition ← renderClause c condition
    let groups ← renderGroups c groupBy
    let having ← renderClause c having
    let orders ← renderOrders c orderBy
    let unions ← renderUnions c unions
    return statementText
      [selectText distinct selectOption columns, listClauseText "FROM" tables,
        Text.joinWith " " joins, clauseText "WHERE" condition, listClauseText "GROUP BY" groups,
        clauseText "HAVING" having, listClauseText "ORDER BY" orders,
        limitText c.dialect limit offset]
      unions

end

namespace Compiler

/-- A query with the parameters it binds, added to those already there. -/
def build (c : Compiler) (q : Query) (ps : Params) : Result (String × Params) :=
  (renderQuery c q).into ps

/-- A condition with the parameters it binds, added to those already there. -/
def buildCondition (c : Compiler) (o : Operand) (ps : Params) : Result (String × Params) :=
  (renderOperand c .condition o).into ps

/-- A value as a literal of a statement. -/
def literal (c : Compiler) (v : Value) : String :=
  match v with
  | .null => "NULL"
  | .bool b => if b then "1" else "0"
  | .int32 _ | .int64 _ | .single _ | .double _ => v.toPlainString
  | v => c.dialect.quoteValue v.toPlainString

end Compiler

/-- A test whether a statement has rows. -/
def selectExistsText (sql : String) : String :=
  "SELECT EXISTS(" ++ sql ++ ")"

end QueryKit
