import QueryCompiler.Compile.Step
import QueryCompiler.Row

/-! # `QueryCompiler.Compile.Scalar` — compiling expressions

A registered node is written as the field it is read from, whatever its kind.  Any other node is
written by its kind: literals are bound to placeholders, null is never bound, equality with null
becomes a test of the other operand, and operands are compiled from left to right.

How a subquery is compiled is a parameter, `subquery`: it is given the query in its normal form and
the scope that its terms see.  The knot is tied in `QueryCompiler.Compile.Select`.
-/

namespace QueryCompiler

/-- How the subqueries of expressions are compiled. -/
abbrev SubqueryCompiler := Query → Scope → CompileM Sql.Select

/-- The field a node is read from if it is registered, and its own form otherwise. -/
def registeredOr (id : NodeId) (own : CompileM Sql.Scalar) : CompileM Sql.Scalar := do
  match ← CompileM.referenceOf id with
  | some ref => return .reference ref.qualifier ref.field
  | none => own

/-- A literal: null stands for itself, any other value is bound as the dialect encodes it. -/
def compileLiteral (value : Value) : CompileM Sql.Scalar :=
  if value.isNull then
    return .null
  else do
    let index ← CompileM.bindValue ((← get).dialect.encode value)
    return .bound index

/-- The test of null that a comparison with null amounts to: for inequality it is negated. -/
def CompareOp.nullTest? : CompareOp → Option Bool
  | .eq => some false
  | .ne => some true
  | _ => none

/-- A subquery must have one output column. -/
def requireOneColumn (select : Sql.Select) : CompileM Unit :=
  let width := select.outputs.length
  if width = 1 then
    pure ()
  else
    throw (.unsupportedExpression "InSubquery"
      ("subquery projects " ++ toString width ++ " columns, expected 1"))

mutual

/-- The written form of an expression. -/
def Expr.compile (subquery : SubqueryCompiler) : Expr → CompileM Sql.Scalar
  | .literal id value => registeredOr id (compileLiteral value)
  | .null id => registeredOr id (return .null)
  | .column id _ _ => registeredOr id (throw (.missingAlias "Column" id))
  | .parameter id name => registeredOr id (return .named name)
  | .binary id op left right => registeredOr id do
    let left ← left.compile subquery
    let right ← right.compile subquery
    return .binary op left right
  | .unary id op operand => registeredOr id do
    let operand ← operand.compile subquery
    return .unary op operand
  | .compare id op left right => registeredOr id do
    match op.nullTest?, left.isNullLiteral, right.isNullLiteral with
    | some negated, _, true =>
      let subject ← left.compile subquery
      return .nullTest negated subject
    | some negated, true, false =>
      let subject ← right.compile subquery
      return .nullTest negated subject
    | _, _, _ =>
      let left ← left.compile subquery
      let right ← right.compile subquery
      return .compare op left right
  | .aggregate id func distinct operand => registeredOr id do
    let operand ← operand.compile subquery
    return .aggregate func distinct operand
  | .countStar id => registeredOr id (return .countStar)
  | .case id condition positive negative => registeredOr id do
    let condition ← condition.compile subquery
    let positive ← positive.compile subquery
    let negative ← negative.compile subquery
    return .case condition positive negative
  | .like id value pattern => registeredOr id do
    let value ← value.compile subquery
    let pattern ← pattern.compile subquery
    return .like value pattern
  | .inList id _ [] =>
    registeredOr id (throw (.unsupportedExpression "InList" "IN list is empty"))
  | .inList id needle (value :: values) => registeredOr id do
    let needle ← needle.compile subquery
    let value ← value.compile subquery
    let values ← Expr.compileAll subquery values
    return .inList needle (value :: values)
  | .inQuery id needle query scope => registeredOr id do
    let needle ← needle.compile subquery
    let query ← CompileM.normalize query
    let select ← CompileM.indented 2 (subquery query scope)
    requireOneColumn select
    return .inSelect needle select
  | .unknown id name => registeredOr id (throw (.unknownColumn name))

def Expr.compileAll (subquery : SubqueryCompiler) : List Expr → CompileM (List Sql.Scalar)
  | [] => return []
  | e :: es => do
    let sql ← e.compile subquery
    let sqls ← Expr.compileAll subquery es
    return sql :: sqls

end

end QueryCompiler
