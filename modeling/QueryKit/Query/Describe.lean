import QueryKit.Compile.Query
import QueryKit.Json.Decode

/-!
# Query models on show

A query model as a document, for logs and for comparison. Values are shown with their types, and a
query shows only the settings that differ from those of the empty query.
-/

namespace QueryKit

open Json (ofOption)

namespace ParamType

def name : ParamType → String
  | null => "Null"
  | bool => "Bool"
  | int => "Int"
  | str => "Str"
  | lob => "Lob"

def all : List ParamType := [null, bool, int, str, lob]

end ParamType

namespace Value

mutual

/-- A value with its type. Numbers with a fraction and documents are shown by their text. -/
def describe : Value → Json
  | .null => .null
  | .bool b => .bool b
  | .int32 n => .object [("I32", .ofInt n.toInt)]
  | .int64 n => .object [("I64", .ofInt n.toInt)]
  | .single x => .object [("F32", .string x.toPlainString)]
  | .double x => .object [("F64", .string x.toPlainString)]
  | .string s => .string s
  | .bytes b => .object [("Bytes", .array (b.map fun x => .ofInt x.toNat))]
  | .json j => .object [("Json", .string j.render)]
  | .array items => .object [("Array", .array (describeItems items))]

def describeItems : List Value → List Json
  | [] => []
  | v :: vs => describe v :: describeItems vs

end

end Value

namespace Params

/-- The parameters in bind order, each with its key and its type. -/
def describe (ps : Params) : Json :=
  .array (ps.entries.map fun (key, p) =>
    let key := match key with
      | .positional => Json.null
      | .named name => .string name
    .array [key, p.value.describe, .string p.type.name])

end Params

namespace LikeEscape

def describe : LikeEscape → Json
  | standard => .null
  | disabled => .bool false
  | custom pairs => .array (pairs.map fun p => .array [.string p.1, .string p.2])

end LikeEscape

/-- Members of an object, without those that have nothing to show. -/
def shown (members : List (String × Option Json)) : Json :=
  .object (members.filterMap fun (k, j) => j.map fun j => (k, j))

/-- A list, if it is not empty. -/
def shownList (items : List Json) : Option Json :=
  if items.isEmpty then none else some (.array items)

/-- A setting, if it is switched on. -/
def shownFlag (b : Bool) : Option Json :=
  if b then some (.bool true) else none

mutual

def describeOperand : Operand → Json
  | .value v => .object [("v", v.describe)]
  | .list items => .object [("list", .array (describeOperands items))]
  | .map entries => .object [("map", .array (describeEntries entries))]
  | .expr e => describeExpression e

def describeOperands : List Operand → List Json
  | [] => []
  | o :: os => describeOperand o :: describeOperands os

def describeEntries : List (String × Operand) → List Json
  | [] => []
  | (k, o) :: es => .array [.string k, describeOperand o] :: describeEntries es

def describeExpression : Expression → Json
  | .raw sql params => .object [("raw", .string sql), ("params", params.describe)]
  | .typed v type => .object [("typed", v.describe), ("type", .string type.name)]
  | .arrayOfValues values elementType dimension =>
    .object [("array", .array (Value.describeItems values)),
      ("of_type", ofOption .string elementType), ("dimension", .ofInt dimension)]
  | .arrayOfQuery q elementType dimension =>
    .object [("array", describeQuery q), ("of_type", ofOption .string elementType),
      ("dimension", .ofInt dimension)]
  | .json j jsonType =>
    .object [("json", .string j.render), ("json_type", ofOption .string jsonType)]
  | .query q => .object [("query", describeQuery q)]
  | .condition c => .object [("condition", describeCondition c)]

def describeCondition : Condition → Json
  | .hash entries => .object [("hash", .array (describeEntries entries))]
  | .simple column op v =>
    .object [("simple",
      .array [.string op.token, describeOperand column, describeOperand v])]
  | .not o => .object [("not", describeOperand o)]
  | .conjunction c operands =>
    .object [("conjunction", .array [.string c.word, .array (describeOperands operands)])]
  | .between column negated low high =>
    .object [("between",
      .array [.bool negated, describeOperand column, describeOperand low, describeOperand high])]
  | .isIn column negated values =>
    .object [("in", .array [.bool negated, describeOperand column, describeOperand values])]
  | .like column negated combine values escape =>
    .object [("like",
      .array [.bool negated, .string combine.word, describeOperand column,
        describeOperand values, escape.describe])]
  | .isExists negated q => .object [("exists", .array [.bool negated, describeQuery q])]

def describeColumn : Column → Json
  | .name n => .string n
  | .expr e => .object [("expr", describeExpression e)]

def describeItems : List ColumnItem → List Json
  | [] => []
  | ⟨label, column⟩ :: items =>
    .array [ofOption .string label, describeColumn column] :: describeItems items

def describeJoins : List Join → List Json
  | [] => []
  | ⟨type, ⟨label, column⟩, on⟩ :: joins =>
    .array [.string type.word, ofOption .string label, describeColumn column,
      (describeClause on).getD .null] :: describeJoins joins

def describeClause : Option Operand → Option Json
  | none => none
  | some o => some (describeOperand o)

def describeColumns : List Column → List Json
  | [] => []
  | c :: cs => describeColumn c :: describeColumns cs

def describeOrders : List OrderItem → List Json
  | [] => []
  | ⟨column, direction⟩ :: items =>
    .array [describeColumn column, .string direction.word] :: describeOrders items

def describeUnions : List UnionMember → List Json
  | [] => []
  | ⟨q, all⟩ :: unions => .array [describeQuery q, .bool all] :: describeUnions unions

/-- The clauses and settings of a query that differ from the empty query. -/
def describeQuery : Query → Json
  | ⟨select, selectOption, distinct, tables, joins, condition, groupBy, having, orderBy, limit,
      offset, unions, params, indexBy, cache, share, emulateExecution⟩ =>
    shown
      [("select", shownList (describeItems select)),
        ("select_option", selectOption.map .string),
        ("distinct", shownFlag distinct),
        ("from", shownList (describeItems tables)),
        ("join", shownList (describeJoins joins)),
        ("where", describeClause condition),
        ("group_by", shownList (describeColumns groupBy)),
        ("having", describeClause having),
        ("order_by", shownList (describeOrders orderBy)),
        ("limit", limit.map Json.ofNat),
        ("offset", offset.map Json.ofNat),
        ("union", shownList (describeUnions unions)),
        ("params", if params.size = 0 then none else some params.describe),
        ("index_by", indexBy.map fun
          | .column name => .string name
          | .closure _ => .object [("closure", .bool true)]),
        ("cache", cache.map fun p => .object [("ttl", ofOption Json.ofNat p.ttl)]),
        ("share", shownFlag share),
        ("emulate_execution", shownFlag emulateExecution)]

end

end QueryKit
