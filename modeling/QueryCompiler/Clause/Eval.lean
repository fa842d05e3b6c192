import QueryCompiler.Row

/-! # `QueryCompiler.Clause.Eval` — evaluation of clauses

A term is evaluated in a scope, its arguments from left to right and then the node itself.  Nodes
reached through rows and names keep their identity; everything else is built anew.

    slot n s        the row in place s, n scopes outwards        no new node
    get x           the row bound to x                           no new node
    bind x r body   body with x bound to r                       no new scope
    over r body     body over the row r                          one scope further in
    inQuery e q     the scope at hand goes into the node         q is not evaluated
-/

namespace QueryCompiler

mutual

def ExprTerm.eval : ExprTerm → Scope → Build Expr
  | .literal value, _ => Build.node fun id => .literal id value
  | .null, _ => Build.node .null
  | .column table name, _ => Build.node fun id => .column id table name
  | .parameter name, _ => Build.node fun id => .parameter id name
  | .named row name, scope => do (← row.eval scope).column name
  | .qualified row table name, scope => do (← row.eval scope).columnOf table name
  | .field row index, scope => do (← row.eval scope).field index
  | .binary op left right, scope => do
    let left ← left.eval scope
    let right ← right.eval scope
    Build.node fun id => .binary id op left right
  | .unary op operand, scope => do
    let operand ← operand.eval scope
    Build.node fun id => .unary id op operand
  | .compare op left right, scope => do
    let left ← left.eval scope
    let right ← right.eval scope
    Build.node fun id => .compare id op left right
  | .aggregate func distinct operand, scope => do
    let operand ← operand.eval scope
    Build.node fun id => .aggregate id func distinct operand
  | .countStar, _ => Build.node .countStar
  | .case condition positive negative, scope => do
    let condition ← condition.eval scope
    let positive ← positive.eval scope
    let negative ← negative.eval scope
    Build.node fun id => .case id condition positive negative
  | .like value pattern, scope => do
    let value ← value.eval scope
    let pattern ← pattern.eval scope
    Build.node fun id => .like id value pattern
  | .inList needle values, scope => do
    let needle ← needle.eval scope
    let values ← ExprTerm.evalAll values scope
    Build.node fun id => .inList id needle values
  | .inQuery needle query, scope => do
    let needle ← needle.eval scope
    Build.node fun id => .inQuery id needle query scope
  | .over row body, scope => do
    let row ← row.eval scope
    body.eval (.clause row :: scope)

def ExprTerm.evalAll : List ExprTerm → Scope → Build (List Expr)
  | [], _ => pure []
  | term :: terms, scope => do
    let e ← term.eval scope
    let es ← ExprTerm.evalAll terms scope
    return e :: es

def RowTerm.eval : RowTerm → Scope → Build Row
  | .slot up slot, scope => pure (Scope.slot scope up slot)
  | .absent, _ => pure .absent
  | .tuple rows, scope => do
    let rows ← RowTerm.evalAll rows scope
    return .tuple rows
  | .item row index, scope => do
    let row ← row.eval scope
    return row.item index
  | .key row, scope => do
    let row ← row.eval scope
    return row.key
  | .source row, scope => do
    let row ← row.eval scope
    return row.source
  | .group key source, scope => do
    let key ← key.eval scope
    let source ← source.eval scope
    return .group key source
  | .table t, _ => do
    let columns ← t.instantiate
    return .table t columns
  | .get name, scope => pure (Scope.get scope name)
  | .bind name value body, scope => do
    let value ← value.eval scope
    body.eval (.named name value :: scope)
  | .expr e, scope => do
    let e ← e.eval scope
    return .expr e

def RowTerm.evalAll : List RowTerm → Scope → Build (List Row)
  | [], _ => pure []
  | term :: terms, scope => do
    let row ← term.eval scope
    let rows ← RowTerm.evalAll terms scope
    return row :: rows

end

/-! ## Clauses over rows -/

/-- The expression a clause builds over a row. -/
def ExprTerm.evalOn (term : ExprTerm) (scope : Scope) (row : Row) : Build Expr :=
  term.eval (.clause row :: scope)

/-- The expressions that clauses build over a row. -/
def ExprTerm.evalAllOn (terms : List ExprTerm) (scope : Scope) (row : Row) : Build (List Expr) :=
  ExprTerm.evalAll terms (.clause row :: scope)

/-- The row that the stages of a projection make of a row. -/
def RowTerm.runStages (scope : Scope) : List RowTerm → Row → Build Row
  | [], row => pure row
  | stage :: stages, row => do
    let row ← stage.eval (.clause row :: scope)
    runStages scope stages row

/-- What a join makes of a pair of rows. -/
def RowTerm.evalJoined (term : RowTerm) (scope : Scope) (outer inner : Row) : Build Row :=
  term.eval (.joined outer inner :: scope)

end QueryCompiler
