import QueryCompiler.Json.Decode
import QueryCompiler.Operator

/-! # `QueryCompiler.Plan.Basic` — plans

A plan describes a query as data: the tables it knows, the one it starts from, steps in order, and
an optional aggregate of the outcome.  Columns go by their name, with the table and a point in front
where needed.
-/

namespace QueryCompiler

/-- What a condition asks of a column. -/
inductive ConditionOp where
  | compare (op : CompareOp)
  | like
  | among
  | isNull
  | isNotNull
deriving DecidableEq, Repr

structure Condition where
  column : String
  op : ConditionOp
  value : Json

/-- A table to join and the columns that must agree. -/
structure JoinStep where
  table : String
  kind : JoinKind
  outer : String
  inner : String

structure OrderKey where
  column : String
  descending : Bool

inductive Step where
  | join (join : JoinStep)
  | filter (condition : Condition)
  | groupBy (columns : List String)
  | orderBy (keys : List OrderKey)
  | select (columns : List String)

/-- An aggregate over all rows, of a column or of the first one. -/
structure PlanAggregate where
  func : AggregateFunc
  column : Option String

/-- A query as data. -/
structure Plan where
  tables : List (String × List String)
  start : String
  steps : List Step
  aggregate : Option PlanAggregate

/-! ## Reading a plan -/

namespace Plan

open Document

/-- The columns of each table; the last of several tables with one name stays. -/
def tables? : Document → Option (List (String × List String))
  | .object members =>
    members.foldlM (fun tables (key, columns) => do
      let key ← key
      let columns ← list? text? columns
      return (key, columns) :: tables) []
  | _ => none

def joinKinds : List (String × JoinKind) := [("inner", .inner), ("left", .left)]

def conditionOps : List (String × ConditionOp) :=
  [("eq", .compare .eq), ("ne", .compare .ne), ("lt", .compare .lt), ("le", .compare .le),
    ("gt", .compare .gt), ("ge", .compare .ge), ("like", .like), ("in", .among),
    ("isNull", .isNull), ("isNotNull", .isNotNull)]

def aggregateFuncs : List (String × AggregateFunc) :=
  [("sum", .sum), ("avg", .avg), ("min", .min), ("max", .max), ("count", .count)]

def joinStep? (d : Document) : Option JoinStep := do
  match ← d.fields? ["table", "kind", "outer", "inner"] with
  | [table, kind, outer, inner] =>
    let table ← required? text? table
    let kind ← withDefault? .inner (choice? joinKinds) kind
    let outer ← required? text? outer
    let inner ← required? text? inner
    return ⟨table, kind, outer, inner⟩
  | _ => none

/-- The value in a condition.  It stands inside the plan, the list of steps, the step and the
condition, so four levels fewer are left for it. -/
def conditionValue? (d : Document) : Option Json := d.toJson? (nestingLimit - 4)

def condition? (d : Document) : Option Condition := do
  match ← d.fields? ["column", "op", "value"] with
  | [column, op, value] =>
    let column ← required? text? column
    let op ← required? (choice? conditionOps) op
    let value ← withDefault? .null conditionValue? value
    return ⟨column, op, value⟩
  | _ => none

def orderKey? (d : Document) : Option OrderKey := do
  match ← d.fields? ["column", "descending"] with
  | [column, descending] =>
    let column ← required? text? column
    let descending ← withDefault? false bool? descending
    return ⟨column, descending⟩
  | _ => none

/-- A step is an object with one member, named for what it does. -/
def step? : Document → Option Step
  | .object [(some "join", d)] => (joinStep? d).map .join
  | .object [(some "where", d)] => (condition? d).map .filter
  | .object [(some "groupBy", d)] => (list? text? d).map .groupBy
  | .object [(some "orderBy", d)] => (list? orderKey? d).map .orderBy
  | .object [(some "select", d)] => (list? text? d).map .select
  | _ => none

def aggregate? (d : Document) : Option PlanAggregate := do
  match ← d.fields? ["func", "column"] with
  | [func, column] =>
    let func ← required? (choice? aggregateFuncs) func
    let column ← withDefault? none (option? text?) column
    return ⟨func, column⟩
  | _ => none

def ofDocument? (d : Document) : Option Plan := do
  match ← d.fields? ["tables", "from", "steps", "aggregate"] with
  | [tables, start, steps, aggregate] =>
    let tables ← required? tables? tables
    let start ← required? text? start
    let steps ← withDefault? [] (list? step?) steps
    let aggregate ← withDefault? none (option? aggregate?) aggregate
    return ⟨tables, start, steps, aggregate⟩
  | _ => none

def parse? (s : String) : Option Plan := (Document.parse? s).bind ofDocument?

end Plan

end QueryCompiler
