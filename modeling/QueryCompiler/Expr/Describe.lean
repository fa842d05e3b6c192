import QueryCompiler.Expr.Basic
import QueryCompiler.Query.Shape

/-! # `QueryCompiler.Expr.Describe` — describing expressions

The text that shows an expression to a programmer: each node with its identity, a subquery by the
shape of its clauses.
-/

namespace QueryCompiler

mutual

/-- An expression with the identities of its nodes. -/
def Expr.describe : Expr → String
  | .literal id value => "#" ++ toString id ++ " " ++ value.display
  | .null id => "#" ++ toString id ++ " NULL"
  | .column id table name => "#" ++ toString id ++ " " ++ table ++ "." ++ name
  | .parameter id name => "#" ++ toString id ++ " $" ++ name
  | .binary id op left right =>
    "#" ++ toString id ++ " (" ++ left.describe ++ " " ++ op.symbol ++ " " ++ right.describe ++ ")"
  | .unary id op operand => "#" ++ toString id ++ " (" ++ op.name ++ " " ++ operand.describe ++ ")"
  | .compare id op left right =>
    "#" ++ toString id ++ " (" ++ left.describe ++ " " ++ op.symbol ++ " " ++ right.describe ++ ")"
  | .aggregate id func _ operand =>
    "#" ++ toString id ++ " " ++ func.symbol ++ "(" ++ operand.describe ++ ")"
  | .countStar id => "#" ++ toString id ++ " COUNT(*)"
  | .case id condition positive negative =>
    "#" ++ toString id ++ " CASE(" ++ condition.describe ++ ", " ++ positive.describe ++ ", " ++
      negative.describe ++ ")"
  | .like id value pattern =>
    "#" ++ toString id ++ " (" ++ value.describe ++ " LIKE " ++ pattern.describe ++ ")"
  | .inList id needle values =>
    "#" ++ toString id ++ " (" ++ needle.describe ++ " IN [" ++
      String.intercalate ", " (Expr.describeAll values) ++ "])"
  | .inQuery id needle query _ =>
    "#" ++ toString id ++ " (" ++ needle.describe ++ " IN " ++ query.shape ++ ")"
  | .unknown id name => "#" ++ toString id ++ " ?" ++ name

def Expr.describeAll : List Expr → List String
  | [] => []
  | e :: es => e.describe :: Expr.describeAll es

end

end QueryCompiler
