import QueryCompiler.Compile.Select
import QueryCompiler.Statement

/-! # `QueryCompiler.Compile.Change` — compiling statements that change rows

There are no derived tables here: the columns of the one table are read under its own name, and the
whole statement stands on one line.

    DELETE   table, condition
    UPDATE   at least one assignment, then table, assignments in order, condition
    INSERT   at least one value, then values in order; they see no row

An assignment names a column of the table before its value is looked at.
-/

namespace QueryCompiler

section

variable (subquery : SubqueryCompiler) (scope : Scope)

/-- New columns of the table, read under its own name. -/
def compileTarget (t : Table) : CompileM Row := do
  let columns ← CompileM.build t.instantiate
  CompileM.registerAll t.name ((columns.map Expr.id).zip t.columns)
  return .table t columns

/-- The one condition that says the same as all of them, if there are any. -/
def conjunction : List ExprTerm → Option ExprTerm
  | [] => none
  | term :: terms => some (terms.foldl (.binary .and) term)

/-- A column that is set must be one of the table's. -/
def requireColumn (t : Table) (column : String) : CompileM Unit :=
  if t.hasColumn column then pure () else throw (.unknownColumn column)

/-- The expression a column is set to. -/
def Assigned.build (row : Row) : Assigned → Build Expr
  | .computed term => term.evalOn scope row
  | .fixed value => pure value

/-- Assignments, first to last. -/
def compileAssignments (t : Table) (row : Row) :
    List (String × Assigned) → CompileM (List (String × Sql.Scalar))
  | [] => return []
  | (column, value) :: rest => do
    requireColumn t column
    let e ← CompileM.build (value.build scope row)
    let sql ← e.compile subquery
    let sqls ← compileAssignments t row rest
    return (column, sql) :: sqls

def Delete.compile (s : Delete) : CompileM Sql.Change := do
  let row ← compileTarget s.table
  let filter ← compileCondition subquery scope (conjunction s.filters) row
  return .delete s.table.name filter

/-- An `UPDATE`, which must set a column. -/
def Update.compile (s : Update) : CompileM Sql.Change := do
  if s.assignments.isEmpty then
    throw (.emptyAssignments "UPDATE")
  let row ← compileTarget s.table
  let assignments ← compileAssignments subquery scope s.table row s.assignments
  let filter ← compileCondition subquery scope (conjunction s.filters) row
  return .update s.table.name assignments filter

/-- An `INSERT`, which must set a column; its values see no row. -/
def Insert.compile (s : Insert) : CompileM Sql.Change := do
  if s.values.isEmpty then
    throw (.emptyAssignments "INSERT")
  let values ← compileAssignments subquery scope s.table .absent
    (s.values.map fun (column, value) => (column, .fixed value))
  return .insert s.table.name values

def Statement.compile : Statement → CompileM Sql.Change
  | .delete s => s.compile subquery scope
  | .update s => s.compile subquery scope
  | .insert s => s.compile subquery scope

end

/-! ## How deep its subqueries go -/

/-- A bound for what a column is set to. -/
def Assigned.nesting (scope : Scope) : Assigned → Nat
  | .computed term => term.subqueries + scope.nesting
  | .fixed value => value.nesting

/-- A bound for all that a list of columns is set to. -/
def Assigned.nestingAll (scope : Scope) : List (String × Assigned) → Nat
  | [] => 0
  | (_, value) :: rest => max (value.nesting scope) (nestingAll scope rest)

/-- A bound for a statement whose terms see the given scope. -/
def Statement.nesting (scope : Scope) : Statement → Nat
  | .delete s => ExprTerm.subqueriesAll s.filters + scope.nesting
  | .update s =>
    max (Assigned.nestingAll scope s.assignments) (ExprTerm.subqueriesAll s.filters + scope.nesting)
  | .insert s => Expr.nestingAll (s.values.map (·.2))

/-- The statement, whose terms see the given scope. -/
def Statement.compileIn (scope : Scope) (s : Statement) : CompileM Sql.Change :=
  s.compile (compileWithin (s.nesting scope)) scope

end QueryCompiler
