import QueryCompiler.Compiler
import QueryCompiler.Plan.Basic

/-! # `QueryCompiler.Plan.Build` — from plan to query

Each step of a plan wraps the query so far.  A join passes on both rows as a pair, a selection the
named columns, and every other step the row it is given.
-/

namespace QueryCompiler

/-- Why a plan describes no query. -/
inductive PlanError where
  | undeclaredTable (name : String)
  /-- Membership asks for a list of values. -/
  | listExpected (column : String)
  | unsupportedLiteral (value : Json)

def PlanError.message : PlanError → String
  | .undeclaredTable name => "table '" ++ name ++ "' is not declared in the plan"
  | .listExpected column => "'in' expects an array value for column " ++ column
  | .unsupportedLiteral value => "unsupported literal " ++ value.compact

/-- The parts of a text before and behind its first point. -/
def splitAtPoint (name : String) : Option (String × String) :=
  match name.toList.span (· ≠ '.') with
  | (_, []) => none
  | (before, _ :: after) => some (String.ofList before, String.ofList after)

/-- The column of the row that goes by a name in a plan: a column of a table if there is a point in
the name, and any column otherwise. -/
def ExprTerm.resolve (name : String) : ExprTerm :=
  match splitAtPoint name with
  | some (owner, member) => .qualified .row owner member
  | none => .named .row name

/-- A value in a plan: a whole number that fits is an integer, any other number a double. -/
def literalValue : Json → Except PlanError Value
  | .null => .ok .null
  | .bool b => .ok (.bool b)
  | .int n =>
    if -(Int.pow 2 63) ≤ n ∧ n < Int.pow 2 63 then .ok (.int (Int64.ofInt n))
    else .ok (.float (Binary64.ofRatio (n < 0) n.natAbs 1))
  | .float x => .ok (.float x)
  | .str s => .ok (.text s)
  | value => .error (.unsupportedLiteral value)

namespace Plan

/-- A table that the plan declares. -/
def table (plan : Plan) (name : String) : Except PlanError Table :=
  match plan.tables.lookup name with
  | some columns => .ok ⟨name, columns⟩
  | none => .error (.undeclaredTable name)

/-- The predicate that a condition amounts to. -/
def predicate (condition : Condition) : Except PlanError ExprTerm :=
  let subject := ExprTerm.resolve condition.column
  match condition.op, condition.value with
  | .among, .arr items => do
    let values ← items.mapM literalValue
    return .inList subject (values.map .ofValue)
  | .among, _ => .error (.listExpected condition.column)
  | .isNull, _ => .ok (.isNull subject)
  | .isNotNull, _ => .ok (.isNotNull subject)
  | .compare op, value => do return .compare op subject (.ofValue (← literalValue value))
  | .like, value => do return .like subject (.ofValue (← literalValue value))

/-- The join that a step describes. -/
def joinTerm (plan : Plan) (join : JoinStep) : Except PlanError JoinTerm := do
  let table ← plan.table join.table
  return .mk join.kind table (.resolve join.outer) (.resolve join.inner)
    (.tuple [.slot 0 .outer, .slot 0 .inner]) none

/-- The query so far with one step more. -/
def apply (plan : Plan) (q : Query) : Step → Except PlanError Query
  | .join join => do return .join q [← plan.joinTerm join]
  | .filter condition => do return .filter q (← predicate condition)
  | .groupBy columns => .ok (.groupBy q (columns.map .resolve) none)
  | .orderBy keys =>
    .ok (.orderBy q (keys.map fun key =>
      .mk (if key.descending then .descending else .ascending) (.resolve key.column)))
  | .select columns => .ok (.select q [.exprs (columns.map .resolve)] none)

/-- What a plan describes: rows, or one aggregate of them. -/
inductive Planned where
  | rows (query : Query)
  | scalar (query : ScalarQuery)

/-- The query that a plan describes. -/
def build (plan : Plan) : Except PlanError Planned := do
  let start ← plan.table plan.start
  let q ← plan.steps.foldlM plan.apply (.table start)
  match plan.aggregate with
  | none => return .rows q
  | some aggregate =>
    let q := match aggregate.column with
      | some column => .select q [.expr (.resolve column)] none
      | none => q
    return .scalar ⟨aggregate.func, q⟩

end Plan

end QueryCompiler
