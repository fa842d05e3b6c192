import QueryCompiler.Value

/-! # `QueryCompiler.Dialect` — dialects

All dialects share the structure of their statements.  They differ in the mark in front of a
placeholder, in the value bound for a truth value, and in the spelling of concatenation.
-/

namespace QueryCompiler

inductive Dialect where
  | generic
  | sqlite
  | sqlserver
deriving DecidableEq, Repr, Inhabited

namespace Dialect

def name : Dialect → String
  | .generic => "generic"
  | .sqlite => "sqlite"
  | .sqlserver => "sqlserver"

/-- The mark in front of a placeholder. -/
def parameterMark : Dialect → String
  | .sqlite => ":"
  | _ => "@"

/-- The value bound for a truth value. -/
def encodeBool : Dialect → Bool → Value
  | .generic, b => .bool b
  | _, b => .int (if b then 1 else 0)

/-- The value bound for a literal. -/
def encode (d : Dialect) : Value → Value
  | .bool b => d.encodeBool b
  | v => v

/-- The concatenation of two written operands. -/
def concat : Dialect → String → String → String
  | .sqlite, left, right => left ++ " || " ++ right
  | _, left, right => "CONCAT(" ++ left ++ ", " ++ right ++ ")"

/-- The dialect of a name, in either case of ASCII letters. -/
def ofName? (name : String) : Option Dialect :=
  match String.ofList (name.toList.map Char.toLower) with
  | "generic" => some .generic
  | "sqlite" => some .sqlite
  | "sqlserver" => some .sqlserver
  | "mssql" => some .sqlserver
  | _ => none

/-- What is said about a name that is no dialect's. -/
def unknownMessage (name : String) : String :=
  "unknown dialect '" ++ name ++ "' (expected generic, sqlite or sqlserver)"

end Dialect

end QueryCompiler
