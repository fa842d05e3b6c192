import QueryCompiler.Operator
import QueryCompiler.Value

/-! # `QueryCompiler.Clause.Basic` — clauses and queries

A clause of a query says how to build an expression, or a row of expressions, from the rows it is
given.  Clauses are terms: `ExprTerm` and `RowTerm` are evaluated each time the clause is used, and
every evaluation makes new nodes (`QueryCompiler.Clause.Eval`).  Inside a subquery the rows of the
enclosing clauses stay within reach, counted outwards.

**Why terms and not functions.**  An expression may hold a subquery, a subquery has clauses, and a
clause takes rows of expressions.  With functions for clauses the type of expressions would occur to
the left of an arrow in itself; with terms everything is finite data.  A term also cannot make up
the identity of a node: it can only build new nodes and pass on those it is given.

A table is a name and the names of its columns, in order.  It owns no column nodes: every use of a
table in a query makes new ones, so two uses of one table are never mixed up.

A query is a chain of clauses over a source.  Nothing fixes their order; which of them share one
statement is decided when the query is laid out (`QueryCompiler.Query.Block`).
-/

namespace QueryCompiler

/-! ## Tables -/

structure Table where
  name : String
  columns : List String
deriving DecidableEq, Repr, Inhabited

def Table.hasColumn (t : Table) (name : String) : Bool := t.columns.contains name

/-! ## Clauses -/

/-- The rows a clause is given: `row` for most clauses, `outer` and `inner` for what a join makes
of a pair of rows. -/
inductive Slot where
  | row
  | outer
  | inner
deriving DecidableEq, Repr

mutual

inductive ExprTerm where
  /-- A literal.  The null value is allowed here; `ExprTerm.ofValue` is the usual way in. -/
  | literal (value : Value)
  | null
  /-- A column node that belongs to no row. -/
  | column (table name : String)
  /-- A parameter that the caller binds. -/
  | parameter (name : String)
  /-- The first column of this name that the row offers. -/
  | named (row : RowTerm) (name : String)
  /-- The column of this name of the given table that the row offers. -/
  | qualified (row : RowTerm) (table name : String)
  /-- An expression of the row, by its place. -/
  | field (row : RowTerm) (index : Nat)
  | binary (op : BinaryOp) (left right : ExprTerm)
  | unary (op : UnaryOp) (operand : ExprTerm)
  | compare (op : CompareOp) (left right : ExprTerm)
  | aggregate (func : AggregateFunc) (distinct : Bool) (operand : ExprTerm)
  | countStar
  | case (condition positive negative : ExprTerm)
  | like (value pattern : ExprTerm)
  | inList (needle : ExprTerm) (values : List ExprTerm)
  /-- Membership in the one column of a query that sees the rows in scope here. -/
  | inQuery (needle : ExprTerm) (query : Query)
  /-- The body, one scope further in, over the given row. -/
  | over (row : RowTerm) (body : ExprTerm)

inductive RowTerm where
  /-- A row in scope, so many scopes outwards. -/
  | slot (up : Nat) (slot : Slot)
  /-- The row without expressions. -/
  | absent
  | tuple (rows : List RowTerm)
  /-- An element of the row, by its place. -/
  | item (row : RowTerm) (index : Nat)
  | key (row : RowTerm)
  | source (row : RowTerm)
  | group (key source : RowTerm)
  /-- New columns of a table. -/
  | table (table : Table)
  /-- The row bound to a name. -/
  | get (name : String)
  /-- The body with a name bound to a row; no new scope. -/
  | bind (name : String) (value body : RowTerm)
  | expr (expr : ExprTerm)

inductive SortTerm where
  | mk (direction : Direction) (key : ExprTerm)

/-- A table to join: each key is built over one side's row, the result over both. -/
inductive JoinTerm where
  | mk (kind : JoinKind) (table : Table) (outerKey innerKey : ExprTerm) (result : RowTerm)
      (aliases : Option (List String))

/-- A chain of clauses over a source. -/
inductive Query where
  /-- All rows of a table. -/
  | table (table : Table)
  /-- A query kept apart as a source of its own. -/
  | derived (inner : Query)
  /-- A projection: the stages turn the row into the next one, first to last.  The aliases, if
  there are any, name the output columns. -/
  | select (source : Query) (stages : List RowTerm) (aliases : Option (List String))
  | filter (source : Query) (predicate : ExprTerm)
  | orderBy (source : Query) (keys : List SortTerm)
  | groupBy (source : Query) (keys : List ExprTerm) (having : Option ExprTerm)
  /-- A condition on groups that has not met its grouping yet. -/
  | having (source : Query) (predicate : ExprTerm)
  | join (source : Query) (joins : List JoinTerm)

end

/-! ## Terms built from others -/

/-- The row a clause is given. -/
def RowTerm.row : RowTerm := .slot 0 .row

def RowTerm.exprs (es : List ExprTerm) : RowTerm := .tuple (es.map .expr)

/-- A literal, where the null value is the null expression. -/
def ExprTerm.ofValue : Value → ExprTerm
  | .null => .null
  | v => .literal v

def ExprTerm.first (row : RowTerm) : ExprTerm := .field row 0

def ExprTerm.isNull (operand : ExprTerm) : ExprTerm := .compare .eq operand .null

def ExprTerm.isNotNull (operand : ExprTerm) : ExprTerm := .compare .ne operand .null

/-- An aggregate in a condition on groups: the operand is built, one scope further in, over the
row of the grouped source. -/
def ExprTerm.aggregateOver (func : AggregateFunc) (distinct : Bool) (operand : ExprTerm) :
    ExprTerm :=
  .aggregate func distinct (.over .row operand)

namespace SortTerm

def direction : SortTerm → Direction
  | .mk direction _ => direction

def key : SortTerm → ExprTerm
  | .mk _ key => key

end SortTerm

namespace JoinTerm

def kind : JoinTerm → JoinKind
  | .mk kind .. => kind

def table : JoinTerm → Table
  | .mk _ table .. => table

def outerKey : JoinTerm → ExprTerm
  | .mk _ _ outerKey .. => outerKey

def innerKey : JoinTerm → ExprTerm
  | .mk _ _ _ innerKey .. => innerKey

def result : JoinTerm → RowTerm
  | .mk _ _ _ _ result _ => result

def aliases : JoinTerm → Option (List String)
  | .mk _ _ _ _ _ aliases => aliases

end JoinTerm

/-! ## Queries built from others -/

namespace Query

/-- The projection that passes its row through. -/
def passThrough (source : Query) : Query := .select source [] none

/-- The aggregate of all rows of a query, as the one row of the result.  `COUNT` counts rows; any
other function is taken of the first expression. -/
def aggregate (func : AggregateFunc) (source : Query) : Query :=
  let value :=
    match func with
    | .count => .countStar
    | func => .aggregate func false (.first .row)
  .select source [.exprs [value]] none

end Query

end QueryCompiler
