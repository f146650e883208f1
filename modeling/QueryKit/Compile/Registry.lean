import QueryKit.Dialect.Quoting
import QueryKit.Compile.Basic

/-!
# Families of fragments and their builders

- `Family`: the kinds of fragments.
- `Builder`: the known builders. Each renders one family and refuses every other one.
- `Registry`: the builder of each family. Arrays and documents have builders only in the dialects
  that support them.
- `Compiler`: a dialect with its registry.
-/

namespace QueryKit

/-- The kinds of fragments. -/
inductive Family where
  | query
  | typed
  | raw
  | conjunction
  | not
  | between
  | isIn
  | like
  | isExists
  | simple
  | hash
  | array
  | json
deriving DecidableEq, Repr

namespace Family

def name : Family → String
  | query => "Query"
  | typed => "Typed"
  | raw => "Raw"
  | conjunction => "Conjunction"
  | not => "Not"
  | between => "Between"
  | isIn => "In"
  | like => "Like"
  | isExists => "Exists"
  | simple => "Simple"
  | hash => "Hash"
  | array => "Array"
  | json => "Json"

def all : List Family :=
  [query, typed, raw, conjunction, not, between, isIn, like, isExists, simple, hash, array, json]

/-- Whether the fragments of a family are conditions. -/
def isCondition : Family → Bool
  | query | typed | raw | array | json => false
  | _ => true

end Family

/-- How a dialect marks a bound document. -/
inductive JsonCast where
  | castAs
  | suffix
  | none
deriving DecidableEq, Repr

/-- What renders a family. A builder of documents knows how the dialect marks them. -/
inductive Builder where
  | plain (family : Family)
  | json (cast : JsonCast)
deriving DecidableEq, Repr

namespace Builder

/-- The family that a builder renders. -/
def family : Builder → Family
  | plain f => f
  | json _ => .json

/-- The mark that a builder puts on documents. -/
def cast : Builder → JsonCast
  | plain _ => .none
  | json c => c

/-- The name of a builder in messages. -/
def name (b : Builder) : String :=
  match b.family with
  | .query => "QueryExpressionBuilder"
  | f => f.name ++ "Builder"

/-- What a builder of conditions wants to be given. -/
def expectation (b : Builder) : String :=
  b.name ++ " expects " ++
    match b.family with
    | .hash => "a hash condition"
    | .simple => "a simple condition"
    | .not => "a NOT condition"
    | .conjunction => "AND/OR"
    | .between => "BETWEEN"
    | .isIn => "IN"
    | .like => "LIKE"
    | .isExists => "EXISTS"
    | _ => ""

/-- The fault of giving a builder a fragment of another family. -/
def refusal (b : Builder) (f : Family) : ArgumentFault :=
  if b.family.isCondition && f.isCondition then .wrongCondition b.expectation
  else .wrongBuilder b.name

end Builder

/-- The builder of each family. -/
def Registry : Type :=
  Family → Option Builder

namespace Registry

/-- Install or replace a builder. -/
def register (r : Registry) (f : Family) (b : Builder) : Registry :=
  fun g => if g = f then some b else r g

/-- The builders of every family that does not depend on the dialect. -/
def defaults : Registry
  | .array => none
  | .json => none
  | f => some (.plain f)

/-- The builders of a dialect. -/
def ofDialect : Dialect → Registry
  | .generic _ => defaults
  | .mysql => defaults.register .json (.json .castAs)
  | .postgres => (defaults.register .array (.plain .array)).register .json (.json .suffix)
  | .sqlite => defaults.register .json (.json .none)

end Registry

/-- A dialect with its builders. -/
structure Compiler where
  dialect : Dialect
  registry : Registry

namespace Compiler

/-- The compiler of a dialect with its own builders. -/
def ofDialect (d : Dialect) : Compiler :=
  ⟨d, .ofDialect d⟩

/-- Render a fragment of a family with the builder that the registry has for it. -/
def through (c : Compiler) (f : Family) (render : Builder → Compile String) : Compile String :=
  match c.registry f with
  | none => .fault (.unknownFamily f.name)
  | some b => if b.family = f then render b else .fault (b.refusal f)

end Compiler

end QueryKit
