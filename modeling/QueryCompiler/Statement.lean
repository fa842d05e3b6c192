import QueryCompiler.Expr.Basic
import QueryCompiler.Text.Quoted

/-! # `QueryCompiler.Statement` — statements that change rows

`DELETE`, `UPDATE` and `INSERT` work on one table, whose columns are read under the table's own
name.  Several conditions hold together, and without any every row is meant.
-/

namespace QueryCompiler

/-- What a column is set to: an expression over the row, or one built beforehand. -/
inductive Assigned where
  | computed (term : ExprTerm)
  | fixed (value : Expr)

/-- Removes the rows for which all conditions hold. -/
structure Delete where
  table : Table
  filters : List ExprTerm

/-- Sets columns of the rows for which all conditions hold. -/
structure Update where
  table : Table
  assignments : List (String × Assigned)
  filters : List ExprTerm

/-- Adds a row. -/
structure Insert where
  table : Table
  values : List (String × Expr)

inductive Statement where
  | delete (delete : Delete)
  | update (update : Update)
  | insert (insert : Insert)

namespace Statement

/-- The word a statement starts with. -/
def kind : Statement → String
  | .delete _ => "DELETE"
  | .update _ => "UPDATE"
  | .insert _ => "INSERT"

end Statement

/-! ## Descriptions -/

def Delete.describe (s : Delete) : String :=
  "Delete \x7b table: " ++ Text.quoted s.table.name ++ ", filters: " ++
    toString s.filters.length ++ " \x7d"

def Update.describe (s : Update) : String :=
  "Update \x7b table: " ++ Text.quoted s.table.name ++ ", columns: " ++
    Text.quotedList (s.assignments.map (·.1)) ++ ", filters: " ++ toString s.filters.length ++
    " \x7d"

end QueryCompiler
