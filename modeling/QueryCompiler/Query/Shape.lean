import QueryCompiler.Clause.Basic
import QueryCompiler.Text.Quoted

/-! # `QueryCompiler.Query.Shape` — the shape of a query

The nesting of a query's clauses as a line of text, for diagnostics.
-/

namespace QueryCompiler.Query

/-- The name of the outermost clause. -/
def kind : Query → String
  | .table _ => "From"
  | .derived _ => "FromSubquery"
  | .select .. => "Select"
  | .filter .. => "Where"
  | .orderBy .. => "OrderBy"
  | .groupBy .. => "GroupBy"
  | .having .. => "Having"
  | .join .. => "Join"

/-- The clauses of a query, outermost first, with the tables they name. -/
def shape : Query → String
  | .table t => "From(" ++ t.name ++ ")"
  | .derived inner => "FromSubquery(" ++ inner.shape ++ ")"
  | .select source _ _ => "Select(" ++ source.shape ++ ")"
  | .filter source _ => "Where(" ++ source.shape ++ ")"
  | .orderBy source _ => "OrderBy(" ++ source.shape ++ ")"
  | .groupBy source _ none => "GroupBy(" ++ source.shape ++ ")"
  | .groupBy source _ (some _) => "GroupByHaving(" ++ source.shape ++ ")"
  | .having source _ => "Having(" ++ source.shape ++ ")"
  | .join source joins =>
    "Join(" ++ String.intercalate ", " (source.shape :: joins.map fun j => j.table.name) ++ ")"

end QueryCompiler.Query

def QueryCompiler.JoinTerm.describe (join : JoinTerm) : String :=
  let aliases :=
    match join.aliases with
    | none => "None"
    | some names => "Some(" ++ Text.quotedList names ++ ")"
  "JoinSpec \x7b kind: " ++ join.kind.name ++ ", table: " ++ Text.quoted join.table.name ++
    ", aliases: " ++ aliases ++ ", .. \x7d"
