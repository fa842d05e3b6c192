import QueryCompiler.Operator

/-! # `QueryCompiler.Sql.Syntax` — statements as trees

A statement before it is written.  References, placeholders and names stand apart, so that what a
statement reads, binds and names can be told without looking at text.  The tree is the same for
every dialect and at every level of indentation.
-/

namespace QueryCompiler.Sql

mutual

inductive Scalar where
  /-- A field of a source of the statement. -/
  | reference (qualifier field : String)
  /-- The placeholder of a bound value, by its number. -/
  | bound (index : Nat)
  /-- A placeholder that the caller binds. -/
  | named (name : String)
  | null
  | binary (op : BinaryOp) (left right : Scalar)
  | unary (op : UnaryOp) (operand : Scalar)
  | compare (op : CompareOp) (left right : Scalar)
  /-- The operand has no value or, negated, has one. -/
  | nullTest (negated : Bool) (operand : Scalar)
  | aggregate (func : AggregateFunc) (distinct : Bool) (operand : Scalar)
  | countStar
  | case (condition positive negative : Scalar)
  | like (value pattern : Scalar)
  | inList (needle : Scalar) (values : List Scalar)
  | inSelect (needle : Scalar) (select : Select)

inductive Output where
  | mk (value : Scalar) (name : String)

/-- What a statement reads from. -/
inductive Source where
  | table (name label : String)
  | derived (select : Select) (label : String)

/-- A joined table and the two keys that must agree. -/
inductive Join where
  | mk (kind : JoinKind) (table label : String) (outer inner : Scalar)

inductive OrderItem where
  | mk (key : Scalar) (direction : Direction)

/-- A `SELECT` statement.  Without keys there is no grouping, and without items no ordering. -/
inductive Select where
  | mk (outputs : List Output) (source : Source) (joins : List Join) (filter : Option Scalar)
      (keys : List Scalar) (having : Option Scalar) (order : List OrderItem)

end

/-- A statement that changes the rows of one table. -/
inductive Change where
  | delete (table : String) (filter : Option Scalar)
  | update (table : String) (assignments : List (String × Scalar)) (filter : Option Scalar)
  | insert (table : String) (values : List (String × Scalar))

/-- The expression is one word or a call, and needs no brackets as an operand. -/
def Scalar.isAtomic : Scalar → Bool
  | .reference .. | .bound _ | .named _ | .null | .aggregate .. | .countStar | .case .. => true
  | .binary .. | .unary .. | .compare .. | .nullTest .. | .like .. | .inList .. | .inSelect .. =>
    false

namespace Select

def outputs : Select → List Output
  | .mk outputs .. => outputs

end Select

end QueryCompiler.Sql
