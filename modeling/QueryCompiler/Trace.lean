import QueryCompiler.Dialect
import QueryCompiler.Operator

/-! # `QueryCompiler.Trace` — the record of a compilation

What a compilation reports on the way: which entry points it went through, how the query was
brought into normal form, which statements were compiled.  The record is kept also when the
compilation fails; it then ends where it stopped.
-/

namespace QueryCompiler

/-- One report of a compilation. -/
inductive Event where
  | enteredQuery (dialect : Dialect)
  | enteredScalar (dialect : Dialect) (func : AggregateFunc)
  | enteredStatement (dialect : Dialect) (statement : String)
  /-- A pass over a query, numbered from one. -/
  | pass (number : Nat) (changed : Bool) (shape : String)
  | select (shape : String) (indent : Nat)
  /-- The names given for the outputs do not match them in number. -/
  | aliasesIgnored (expected given : Nat)
  | compiledQuery (shape : String) (params : Nat)
  | compiledStatement (params : Nat)
deriving DecidableEq, Repr

namespace Event

/-- How detailed a report is; entering a part of the compiler is a span of its own. -/
def level : Event → String
  | .enteredQuery .. | .enteredScalar .. | .enteredStatement .. => "SPAN"
  | .pass .. | .select .. => "TRACE"
  | .aliasesIgnored .. | .compiledQuery .. | .compiledStatement .. => "DEBUG"

def message : Event → String
  | .enteredQuery .. => "compile_query"
  | .enteredScalar .. => "compile_scalar_query"
  | .enteredStatement .. => "compile_statement"
  | .pass .. => "normalization pass"
  | .select .. => "compiling select"
  | .aliasesIgnored .. => "ignoring explicit aliases with mismatched count"
  | .compiledQuery .. => "compiled query"
  | .compiledStatement .. => "compiled statement"

/-- The particulars of a report, by name. -/
def fields : Event → List (String × String)
  | .enteredQuery dialect => [("dialect", dialect.name)]
  | .enteredScalar dialect func => [("dialect", dialect.name), ("func", func.symbol)]
  | .enteredStatement dialect statement => [("dialect", dialect.name), ("statement", statement)]
  | .pass number changed shape =>
    [("pass", toString number), ("changed", if changed then "true" else "false"), ("shape", shape)]
  | .select shape indent => [("shape", shape), ("indent", toString indent)]
  | .aliasesIgnored expected given =>
    [("expected", toString expected), ("given", toString given)]
  | .compiledQuery shape params => [("shape", shape), ("params", toString params)]
  | .compiledStatement params => [("params", toString params)]

end Event

end QueryCompiler
