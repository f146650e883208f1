import QueryKit.Text.Join

/-!
# Failures

- `DbError`: what a driver reports about a statement.
- `Error`: the causes of failure. Faults of statements and missing features are known before
  anything runs (`Error.isCompileError`); the others arise when a statement runs.
- `Error.message`: the wording of every failure, in one place.
- `Error.withStatement`: a driver's failure together with the statement that was running; it tells
  violated constraints from other failures.
-/

namespace QueryKit

/-- A failure reported by a driver. -/
structure DbError where
  text : String
  /-- The SQLSTATE or vendor code, if the driver reported one. -/
  code : Option String
  /-- The statement that was running, with its values inlined. -/
  sql : Option String
deriving DecidableEq, Repr

namespace DbError

/-- Whether the driver rejected the statement for violating a constraint: SQLSTATE class 23. -/
def isIntegrityViolation (e : DbError) : Bool :=
  match e.code with
  | some code => (Text.dropText ['2', '3'] code.toList).isSome
  | none => Text.hasText "SQLSTATE[23".toList e.text.toList

def message (e : DbError) : String :=
  (match e.code with
    | some code => "[" ++ code ++ "] "
    | none => "") ++
  e.text ++
  (match e.sql with
    | some sql => "\nThe SQL being executed was: " ++ sql
    | none => "")

end DbError

/-- What is wrong with the arguments of a statement. -/
inductive ArgumentFault where
  | missingParameter (sql : String)
  | missingOperator
  | notACondition
  | oneOperand (operator : String)
  | twoOperands (operator : String)
  | threeOperands (operator : String)
  | notASubquery
  | notPlainValues
  | hashAsValue
  | likePattern
  | unknownFamily (family : String)
  | wrongBuilder (builder : String)
  | wrongCondition (expectation : String)
  | unknownJoin (text : String)
  | namelessTable
  | namelessSelect
  | batchValue
  | noStringForm (column : String)
  | noSequence (table : String)
  /-- A raw text of a filter holds a statement separator. -/
  | semicolon
  | unknownVerb (verb : String)
  | filterForm
  | rawForm
  | rawText
  | columnForm
  | columnList
  | columnName
  | orderList
  | joinKind
  | joinTable
  | joinArguments (least most : Nat)
  | indexName
  | notPositive (clause : String)
  | countForm
  | noDsn
  | malformedDsn (dsn : String)
  | unregistered (name : String)
  | said (text : String)
deriving DecidableEq, Repr

namespace ArgumentFault

def message : ArgumentFault → String
  | missingParameter sql => "Not enough parameters bound for SQL: " ++ sql
  | missingOperator => "Operator-form condition must start with an operator string."
  | notACondition => "Condition must be an operator list or a hash."
  | oneOperand operator => "Operator '" ++ operator ++ "' requires exactly one operand."
  | twoOperands operator => "Operator '" ++ operator ++ "' requires two operands."
  | threeOperands operator => "Operator '" ++ operator ++ "' requires three operands."
  | notASubquery => "Subquery for EXISTS operator must be a Query object."
  | notPlainValues => "Only plain values can be bound as an array"
  | hashAsValue => "A hash can not be bound as a single value"
  | likePattern => "LIKE patterns must be values or expressions"
  | unknownFamily family => "Expression of kind " ++ family ++ " can not be built"
  | wrongBuilder builder => builder ++ " received an expression it can not build"
  | wrongCondition expectation => expectation
  | unknownJoin text => "Unknown join type '" ++ text ++ "'."
  | namelessTable =>
    "To use Expression in from() method, pass it in array format with alias."
  | namelessSelect => "Expected select query object with enumerated (named) parameters"
  | batchValue => "Batch insert values must be scalars or expressions"
  | noStringForm column => column ++ " can not convert to string"
  | noSequence table => "There is no sequence associated with table '" ++ table ++ "'."
  | semicolon => "Sql can not include ';'!"
  | unknownVerb verb => "Unknown filter method '" ++ verb ++ "'."
  | filterForm => "A search filter must be an object."
  | rawForm => "exp expects [sql] or [sql, params]."
  | rawText => "exp expects a SQL string."
  | columnForm => "A column must be a name or an object."
  | columnList => "Expected a column list."
  | columnName => "Expected a column name."
  | orderList => "Expected an order list."
  | joinKind => "A join type must be a string."
  | joinTable => "A join needs exactly one table."
  | joinArguments least most =>
    "A join expects an array of " ++ Nat.repr least ++ " to " ++ Nat.repr most ++ " arguments."
  | indexName => "index_by expects a column name."
  | notPositive clause => clause ++ " must be a positive integer."
  | countForm => "count expects a SQL expression."
  | noDsn => "Connection::dsn cannot be empty."
  | malformedDsn dsn => "Invalid DSN: " ++ dsn
  | unregistered name => "Connection '" ++ name ++ "' is not registered."
  | said text => text

end ArgumentFault

/-- A feature that a dialect has no syntax for. -/
inductive UnsupportedFeature where
  | upsert (driver : String)
  | resetSequence (driver : String)
  | integrityCheck (driver : String)
  | alterColumn
  | isolationLevel
  | nestedTransaction
  | said (text : String)
deriving DecidableEq, Repr

namespace UnsupportedFeature

def message : UnsupportedFeature → String
  | upsert driver => driver ++ " does not support upsert statements."
  | resetSequence driver => driver ++ " does not support resetting sequence."
  | integrityCheck driver =>
    driver ++ " does not support enabling/disabling integrity check."
  | alterColumn => "sqlite does not support altering columns."
  | isolationLevel =>
    "sqlite only supports transaction isolation levels READ UNCOMMITTED and SERIALIZABLE."
  | nestedTransaction => "Transaction not started: nested transaction not supported."
  | said text => text

end UnsupportedFeature

/-- Why no connection could be opened. -/
inductive Outage where
  /-- Every master is down or was down a while ago. -/
  | noMaster
  | serverDown (dsn : String)
  | said (text : String)
deriving DecidableEq, Repr

def Outage.message : Outage → String
  | noMaster => "None of the master DB servers is available."
  | serverDown dsn => "mock server " ++ dsn ++ " is down"
  | said text => text

/-- A call that the state of a session does not allow. -/
inductive CallFault where
  | commitInactive
  | isolationInactive
  | said (text : String)
deriving DecidableEq, Repr

def CallFault.message : CallFault → String
  | commitInactive => "Failed to commit transaction: transaction was inactive."
  | isolationInactive => "Failed to set isolation level: transaction was inactive."
  | said text => text

/-- The causes of failure. -/
inductive Error where
  | database (e : DbError)
  | integrityViolation (e : DbError)
  | unsupported (feature : UnsupportedFeature)
  | invalidArgument (fault : ArgumentFault)
  | connectionUnavailable (outage : Outage)
  | invalidCall (fault : CallFault)
  | serialization
deriving DecidableEq, Repr

instance : Inhabited Error := ⟨.serialization⟩

namespace Error

/-- The name of a failure's cause. -/
def kind : Error → String
  | database _ => "Database"
  | integrityViolation _ => "IntegrityConstraintViolation"
  | unsupported _ => "UnsupportedOperation"
  | invalidArgument _ => "InvalidStatementArgument"
  | connectionUnavailable _ => "ConnectionUnavailable"
  | invalidCall _ => "InvalidCall"
  | serialization => "Serialization"

def message : Error → String
  | database e => "Database error: " ++ e.message
  | integrityViolation e => "Integrity constraint violation: " ++ e.message
  | unsupported feature => "Unsupported operation: " ++ feature.message
  | invalidArgument fault => "Invalid statement argument: " ++ fault.message
  | connectionUnavailable outage => "Connection unavailable: " ++ outage.message
  | invalidCall fault => "Invalid call: " ++ fault.message
  | serialization => "Serialization error"

/-- The driver's report, if the failure came from the database. -/
def dbError? : Error → Option DbError
  | database e | integrityViolation e => some e
  | _ => none

/-- Whether the failure arose before anything ran. -/
def isCompileError : Error → Bool
  | unsupported _ | invalidArgument _ => true
  | _ => false

/-- Attach the statement that was running to a driver's failure that has none yet. -/
def withStatement (sql : String) : Error → Error
  | database e =>
    if e.sql.isNone then
      let e := { e with sql := some sql }
      if e.isIntegrityViolation then integrityViolation e else database e
    else database e
  | integrityViolation e =>
    if e.sql.isNone then integrityViolation { e with sql := some sql } else integrityViolation e
  | other => other

end Error

abbrev Result := Except Error

end QueryKit
