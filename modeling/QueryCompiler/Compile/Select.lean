import QueryCompiler.Clause.Eval
import QueryCompiler.Clause.Subqueries
import QueryCompiler.Compile.Names
import QueryCompiler.Compile.Scalar
import QueryCompiler.Query.Block

/-! # `QueryCompiler.Compile.Select` — compiling blocks

The clauses of a block are compiled in the order base, joins, condition, grouping, ordering,
projection, and each is evaluated over the row that those before it leave.  A derived table is
compiled first and takes its alias after everything inside it; from then on its output expressions
are read from it.

The compiler of expressions and the compiler of blocks need each other.  The knot is tied by a bound
on how many subqueries are entered one inside the other; `Query.subqueries` and `Scope.nesting` give
one that is always large enough (see `QueryCompiler.Proofs.Depth`).
-/

namespace QueryCompiler

/-- An output column of a compiled statement. -/
structure Field where
  expr : Expr
  name : String

/-- A compiled statement with the row that its projection leaves. -/
structure Compiled where
  select : Sql.Select
  row : Row
  fields : List Field

/-! ## Sources -/

/-- A table of its own columns under a new alias. -/
def compileTable (t : Table) : CompileM (Sql.Source × Row) := do
  let columns ← CompileM.build t.instantiate
  let label ← CompileM.takeAlias
  CompileM.registerAll label ((columns.map Expr.id).zip t.columns)
  return (.table t.name label, .table t columns)

/-- The fields without those whose node was among `seen` or comes a second time. -/
def Field.firstUses : List NodeId → List Field → List Field
  | _, [] => []
  | seen, f :: fs =>
    if f.expr.id ∈ seen then firstUses seen fs else f :: firstUses (f.expr.id :: seen) fs

/-- A compiled statement as a derived table under a new alias. -/
def compileDerived (inner : Compiled) : CompileM (Sql.Source × Row) := do
  let label ← CompileM.takeAlias
  CompileM.registerAll label ((Field.firstUses [] inner.fields).map fun f => (f.expr.id, f.name))
  return (.derived inner.select label, inner.row)

/-! ## Clauses -/

section

variable (subquery : SubqueryCompiler) (scope : Scope)

/-- One join: the joined table's columns under a new alias, the two keys, the row of the pair. -/
def compileJoin (join : JoinTerm) (row : Row) : CompileM (Sql.Join × Row) := do
  let columns ← CompileM.build join.table.instantiate
  let label ← CompileM.takeAlias
  CompileM.registerAll label ((columns.map Expr.id).zip join.table.columns)
  let inner := Row.table join.table columns
  let outerKey ← CompileM.build (join.outerKey.evalOn scope row)
  let outerSql ← outerKey.compile subquery
  let innerKey ← CompileM.build (join.innerKey.evalOn scope inner)
  let innerSql ← innerKey.compile subquery
  let row ← CompileM.build (join.result.evalJoined scope row inner)
  return (.mk join.kind join.table.name label outerSql innerSql, row)

def compileJoins : List JoinTerm → Row → CompileM (List Sql.Join × Row)
  | [], row => return ([], row)
  | join :: joins, row => do
    let (sql, row) ← compileJoin subquery scope join row
    let (sqls, row) ← compileJoins joins row
    return (sql :: sqls, row)

/-- The joins of a block, of which there is at least one if there is such a clause. -/
def compileJoinClause : Option (List JoinTerm) → Row → CompileM (List Sql.Join × Row)
  | none, row => return ([], row)
  | some [], _ => throw .emptyJoinChain
  | some joins, row => compileJoins subquery scope joins row

/-- A condition over a row, if there is one. -/
def compileCondition : Option ExprTerm → Row → CompileM (Option Sql.Scalar)
  | none, _ => return none
  | some predicate, row => do
    let e ← CompileM.build (predicate.evalOn scope row)
    let sql ← e.compile subquery
    return some sql

/-- The keys of a grouping, the condition on its groups, and the row of a group. -/
def compileGrouping : Option Grouping → Row → CompileM (List Sql.Scalar × Option Sql.Scalar × Row)
  | none, row => return ([], none, row)
  | some grouping, row => do
    let keys ← CompileM.build (ExprTerm.evalAllOn grouping.keys scope row)
    if keys.isEmpty then
      throw (.unsupportedShape "GroupBy" "grouping without keys")
    let keySql ← Expr.compileAll subquery keys
    let havingSql ← compileCondition subquery scope grouping.having row
    return (keySql, havingSql, .group (.tuple (keys.map .expr)) row)

def compileOrder (keys : List SortTerm) (row : Row) : CompileM (List Sql.OrderItem) := do
  let es ← CompileM.build (ExprTerm.evalAllOn (keys.map (·.key)) scope row)
  let sqls ← Expr.compileAll subquery es
  return List.zipWith (fun sql key => .mk sql key.direction) sqls keys

/-- The names given for the outputs, if they match them in number. -/
def givenNames (given : Option (List String)) (width : Nat) : CompileM (List String) :=
  match given with
  | none => return []
  | some names =>
    if names.length = width then
      return names
    else do
      CompileM.report (.aliasesIgnored width names.length)
      return []

/-- The output columns for the expressions of a row. -/
def compileProjection (given : Option (List String)) (row : Row) :
    CompileM (List Sql.Output × List Field) := do
  let es := row.flatten
  if es.isEmpty then
    throw (.unsupportedShape "Select" "empty projection")
  let sqls ← Expr.compileAll subquery es
  let given ← givenNames given es.length
  let names := outputNames (← get).referenceOf given es
  return (List.zipWith .mk sqls names, List.zipWith Field.mk es names)

/-- The names that joins give for the outputs: the last join that gives any decides. -/
def joinAliases (joins : Option (List JoinTerm)) : Option (List String) :=
  (joins.getD []).reverse.findSome? (·.aliases)

/-- The clauses of a block over its source, and its projection. -/
def compileClauses (clauses : Clauses) (stages : List RowTerm) (aliases : Option (List String))
    (source : Sql.Source) (row : Row) : CompileM Compiled := do
  let (joins, row) ← compileJoinClause subquery scope clauses.joins row
  let filter ← compileCondition subquery scope clauses.filter row
  let (keys, having, row) ← compileGrouping subquery scope clauses.grouping row
  let order ← compileOrder subquery scope (clauses.order.getD []) row
  let row ← CompileM.build (RowTerm.runStages scope stages row)
  let (outputs, fields) ← compileProjection subquery (aliases.or (joinAliases clauses.joins)) row
  return ⟨.mk outputs source joins filter keys having order, row, fields⟩

/-! ## Blocks -/

mutual

def Block.compile : Block → CompileM Compiled
  | .mk body clauses base stages aliases => do
    CompileM.report (.select ("Select(" ++ body.shape ++ ")") (← get).indent)
    let (source, row) ← base.compile
    compileClauses subquery scope clauses stages aliases source row

/-- What a block reads from. -/
def Base.compile : Base → CompileM (Sql.Source × Row)
  | .table t => compileTable t
  | .derived block => do
    let inner ← CompileM.indented 1 block.compile
    compileDerived inner
  | .strayHaving query => throw (.unsupportedShape query.kind query.shape)

end

/-- The statement of a query that ends in a projection. -/
def Query.compile (q : Query) : CompileM Compiled :=
  match q.block? with
  | some block => block.compile subquery scope
  | none => throw (.unsupportedShape q.kind q.shape)

end

/-! ## Subqueries within subqueries -/

/-- Compiles subqueries that nest at most so deep. -/
def compileWithin : Nat → SubqueryCompiler
  | 0, _, _ => throw (.unsupportedExpression "InSubquery" "subqueries nest too deep")
  | depth + 1, query, scope => do
    let compiled ← query.compile (compileWithin depth) scope
    return compiled.select

/-- The statement of a query in normal form, whose terms see the given scope. -/
def Query.compileIn (scope : Scope) (q : Query) : CompileM Compiled :=
  q.compile (compileWithin (q.subqueries + scope.nesting)) scope

/-- The written form of the expression that a term builds in a scope. -/
def ExprTerm.compileIn (scope : Scope) (term : ExprTerm) : CompileM Sql.Scalar := do
  let e ← CompileM.build (term.eval scope)
  e.compile (compileWithin (term.subqueries + scope.nesting))

end QueryCompiler
