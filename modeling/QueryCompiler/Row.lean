import QueryCompiler.Expr.Basic

/-! # `QueryCompiler.Row` — reading a row

A row is read by flattening it to its expressions, by place, or by the name of a column.  The row
of a group flattens to its key; a column is looked for in the key first and then in the row of the
grouped source.
-/

namespace QueryCompiler

namespace Row

mutual

/-- The expressions of a row, depth first. -/
def flatten : Row → List Expr
  | .expr e => [e]
  | .tuple rows => flattenAll rows
  | .table _ columns => columns
  | .group key _ => key.flatten
  | .absent => []

def flattenAll : List Row → List Expr
  | [] => []
  | row :: rows => row.flatten ++ flattenAll rows

end

/-- An element of a row by its place, without flattening. -/
def item : Row → Nat → Row
  | .tuple rows, i => rows.getD i .absent
  | .table _ columns, i => (columns[i]?.map Row.expr).getD .absent
  | .expr e, 0 => .expr e
  | .group key _, i => key.item i
  | _, _ => .absent

/-- The key of a group's row; any other row is its own key. -/
def key : Row → Row
  | .group key _ => key
  | row => row

/-- The source of a group's row; any other row is its own source. -/
def source : Row → Row
  | .group _ source => source
  | row => row

/-- The first column of this name, and of this table if one is given. -/
def find? (table : Option String) (name : String) : Row → Option Expr
  | .group key source => (key.find? table name).or (source.find? table name)
  | row => row.flatten.find? (Expr.isColumnNamed table name)

/-! ## Lookups that may fail

A lookup that finds nothing builds a node that no compilation accepts, so that the failure is
reported where the node is used. -/

/-- The expression found, or else a new node under the name that was looked up. -/
def orUnknown (found : Option Expr) (name : String) : Build Expr :=
  match found with
  | some e => pure e
  | none => Build.node fun id => .unknown id name

/-- An expression of the flattened row, by its place. -/
def field (row : Row) (i : Nat) : Build Expr := orUnknown row.flatten[i]? ("#" ++ toString i)

/-- The first column of this name. -/
def column (row : Row) (name : String) : Build Expr := orUnknown (row.find? none name) name

/-- The column of this name of the given table. -/
def columnOf (row : Row) (table name : String) : Build Expr :=
  orUnknown (row.find? (some table) name) (table ++ "." ++ name)

end Row

end QueryCompiler
