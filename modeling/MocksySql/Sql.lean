import Mathlib.Data.List.AList
/-!
# The parts of sqlparser's AST the proxy reads

Types only. A constructor `other` stands for every variant no code of the proxy tells apart;
fields the proxy never reads are left out. `ObjectName` is never empty, as the parser builds it
(`name.0.last().unwrap()`, `materialization/mod.rs:54`), so its parts are a qualifier and a last one.

`Row`, `Assignments` are `HashMap<String, Option<String>>` of the source.
-/

namespace MocksySql

/-- An identifier with the quotes it was written in, if any. -/
structure Ident where
  value : String
  quoteStyle : Option Char
deriving DecidableEq, Repr

structure ObjectName where
  qualifier : List Ident
  last : Ident
deriving DecidableEq, Repr

inductive BinaryOperator where
  | and | or | eq | notEq | lt | ltEq | gt | gtEq
  | other
deriving DecidableEq, Repr

/-- The string literals, by quoting form. -/
inductive StringLiteral where
  | singleQuoted | tripleSingleQuoted | tripleDoubleQuoted | escaped | unicode
  | singleQuotedByte | doubleQuotedByte | tripleSingleQuotedByte | tripleDoubleQuotedByte
  | singleQuotedRaw | doubleQuotedRaw | tripleSingleQuotedRaw | tripleDoubleQuotedRaw
  | national | hex | doubleQuoted | dollarQuoted
deriving DecidableEq, Repr

inductive Value where
  | number (digits : String)
  | string (form : StringLiteral) (value : String)
  | boolean (b : Bool)
  | null
  | placeholder (name : String)
deriving DecidableEq, Repr

/-- `Value::into_string`: the text of a string literal, whatever its quotes. -/
def Value.intoString : Value → Option String
  | .string _ value => some value
  | _ => none

inductive Expr where
  | identifier (ident : Ident)
  | compoundIdentifier (idents : List Ident)
  | binaryOp (left : Expr) (op : BinaryOperator) (right : Expr)
  | value (val : Value)
  | isNull (expr : Expr)
  | isNotNull (expr : Expr)
  | nested (expr : Expr)
  | other
deriving DecidableEq, Repr

inductive AssignmentTarget where
  | columnName (name : ObjectName)
  | tuple (names : List ObjectName)
deriving DecidableEq, Repr

structure Assignment where
  target : AssignmentTarget
  value : Expr
deriving DecidableEq, Repr

inductive TableFactor where
  | table (name : ObjectName)
  | other
deriving DecidableEq, Repr

/-- `SetExpr`: the body of a query. `nested` are the tables that the queries inside it read (in a WITH clause, in any
expression, in an ORDER BY), which no code looks at. -/
inductive SetExpr where
  | select (from_ : List TableFactor) (selection : Option Expr) (nested : List ObjectName)
  | other
deriving DecidableEq, Repr

inductive Statement where
  | query (body : SetExpr)
  | insert
  | update (relation : TableFactor) (assignments : List Assignment) (selection : Option Expr)
  | delete
  | other
deriving DecidableEq, Repr

abbrev Row := AList fun _ : String => Option String

abbrev Assignments := AList fun _ : String => Option String

end MocksySql
