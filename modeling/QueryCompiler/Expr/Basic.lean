import QueryCompiler.Clause.Basic
import QueryCompiler.Supply

/-! # `QueryCompiler.Expr.Basic` — expressions, rows and scopes

What clauses evaluate to.  An expression is a tree of nodes, each with the identity it was built
with; sharing a node means sharing its identity.  A row is an ordered and possibly nested tuple of
expressions.  A scope is what the terms of a subquery can see: names bound to rows, and the rows
given to the enclosing clauses, innermost first.
-/

namespace QueryCompiler

mutual

inductive Expr where
  /-- A literal, bound to a placeholder. -/
  | literal (id : NodeId) (value : Value)
  | null (id : NodeId)
  | column (id : NodeId) (table name : String)
  /-- A parameter that the caller binds. -/
  | parameter (id : NodeId) (name : String)
  | binary (id : NodeId) (op : BinaryOp) (left right : Expr)
  | unary (id : NodeId) (op : UnaryOp) (operand : Expr)
  | compare (id : NodeId) (op : CompareOp) (left right : Expr)
  | aggregate (id : NodeId) (func : AggregateFunc) (distinct : Bool) (operand : Expr)
  | countStar (id : NodeId)
  | case (id : NodeId) (condition positive negative : Expr)
  | like (id : NodeId) (value pattern : Expr)
  | inList (id : NodeId) (needle : Expr) (values : List Expr)
  /-- Membership in a query, whose terms see the scope in which the node was built. -/
  | inQuery (id : NodeId) (needle : Expr) (query : Query) (scope : List Entry)
  /-- A column that was looked up and not found. -/
  | unknown (id : NodeId) (name : String)

/-- An ordered row of expressions. -/
inductive Row where
  | expr (expr : Expr)
  | tuple (rows : List Row)
  /-- The columns of one use of a table. -/
  | table (table : Table) (columns : List Expr)
  /-- The row of a group: it stands for its key, and the row of the grouped source stays within
  reach. -/
  | group (key source : Row)
  /-- The row without expressions. -/
  | absent

/-- One layer of a scope. -/
inductive Entry where
  | named (name : String) (row : Row)
  /-- The row given to a clause. -/
  | clause (row : Row)
  /-- The pair of rows given to the result of a join. -/
  | joined (outer inner : Row)

end

/-- What a term can see, innermost first. -/
abbrev Scope := List Entry

namespace Expr

def id : Expr → NodeId
  | .literal id _ => id
  | .null id => id
  | .column id _ _ => id
  | .parameter id _ => id
  | .binary id _ _ _ => id
  | .unary id _ _ => id
  | .compare id _ _ _ => id
  | .aggregate id _ _ _ => id
  | .countStar id => id
  | .case id _ _ _ => id
  | .like id _ _ => id
  | .inList id _ _ => id
  | .inQuery id _ _ _ => id
  | .unknown id _ => id

/-- Both are the same node. -/
def same (a b : Expr) : Bool := a.id = b.id

def kind : Expr → String
  | .literal .. => "Literal"
  | .null .. => "Null"
  | .column .. => "Column"
  | .parameter .. => "Parameter"
  | .binary .. => "Binary"
  | .unary .. => "Unary"
  | .compare .. => "Compare"
  | .aggregate .. => "Aggregate"
  | .countStar .. => "CountStar"
  | .case .. => "Case"
  | .like .. => "Like"
  | .inList .. => "InList"
  | .inQuery .. => "InSubquery"
  | .unknown .. => "Unknown"

/-- Null, as an expression or as the value of a literal. -/
def isNullLiteral : Expr → Bool
  | .null _ => true
  | .literal _ value => value.isNull
  | _ => false

def isColumn : Expr → Bool
  | .column .. => true
  | _ => false

/-- A column of this name, and of this table if one is given. -/
def isColumnNamed (table : Option String) (name : String) : Expr → Bool
  | .column _ t n => n = name && table.all (t = ·)
  | _ => false

end Expr

/-! ## Tables in use -/

/-- New nodes for the listed columns of a table. -/
def Table.columnNodes (table : String) : List String → Build (List Expr)
  | [] => pure []
  | name :: names => do
    let column ← Build.node fun id => Expr.column id table name
    let columns ← columnNodes table names
    return column :: columns

/-- New nodes for all columns of a table, in order. -/
def Table.instantiate (t : Table) : Build (List Expr) := Table.columnNodes t.name t.columns

/-! ## Scopes -/

/-- A row of one layer. -/
def Entry.slot : Entry → Slot → Row
  | .clause row, .row => row
  | .joined outer _, .outer => outer
  | .joined _ inner, .inner => inner
  | _, _ => .absent

namespace Scope

/-- A row of the scope so many layers outwards; names bound in between do not count. -/
def slot : Scope → Nat → Slot → Row
  | [], _, _ => .absent
  | .named _ _ :: rest, n, s => slot rest n s
  | entry :: _, 0, s => entry.slot s
  | _ :: rest, n + 1, s => slot rest n s

/-- The row bound to a name, innermost first. -/
def get : Scope → String → Row
  | [], _ => .absent
  | .named n row :: rest, name => if n = name then row else get rest name
  | _ :: rest, name => get rest name

end Scope

end QueryCompiler
