/-! # `QueryCompiler.CompileError` — reasons for refusing to compile

A compilation ends with a whole statement or with one of these.
-/

namespace QueryCompiler

/-- Why a query or a statement does not compile. -/
inductive CompileError where
  /-- The clauses at `node` fit no statement. -/
  | unsupportedShape (node shape : String)
  /-- The expression has no written form. -/
  | unsupportedExpression (node reason : String)
  /-- A node that no source of the statement offers. -/
  | missingAlias (node : String) (id : Nat)
  /-- A join without any table to join. -/
  | emptyJoinChain
  /-- A lookup that found no column. -/
  | unknownColumn (name : String)
  /-- An UPDATE or INSERT that sets no column. -/
  | emptyAssignments (statement : String)
deriving DecidableEq, Repr

def CompileError.message : CompileError → String
  | .unsupportedShape node shape => "unsupported query shape at " ++ node ++ ": " ++ shape
  | .unsupportedExpression node reason => "unsupported expression " ++ node ++ ": " ++ reason
  | .missingAlias node id =>
    "no alias registered for " ++ node ++ " expression #" ++ toString id
  | .emptyJoinChain => "join node has an empty join chain"
  | .unknownColumn name => "unknown column: " ++ name
  | .emptyAssignments statement => statement ++ " statement has no column assignments"

end QueryCompiler
