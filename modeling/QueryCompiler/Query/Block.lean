import QueryCompiler.Query.Shape

/-! # `QueryCompiler.Query.Block` — the statements of a query

One `SELECT` statement takes, from the outside in, an ordering, a grouping, a condition and a chain
of joins over a base, each at most once and in this order, under a projection.  A base that is no
table is a statement of its own, read as a derived table.  A block says what one statement holds;
laying out a query takes it apart into blocks, each clause going to exactly one of them.

A condition on groups that stands on no grouping has no place in any block and is kept as a base
that nothing can be read from.
-/

namespace QueryCompiler

/-- The keys of a grouping and the condition on its groups. -/
structure Grouping where
  keys : List ExprTerm
  having : Option ExprTerm

/-- The clauses of one statement between its base and its projection. -/
structure Clauses where
  joins : Option (List JoinTerm) := none
  filter : Option ExprTerm := none
  grouping : Option Grouping := none
  order : Option (List SortTerm) := none

mutual

/-- What one statement holds; `body` is the part of the query below its projection. -/
inductive Block where
  | mk (body : Query) (clauses : Clauses) (base : Base) (stages : List RowTerm)
      (aliases : Option (List String))

/-- What a statement reads from. -/
inductive Base where
  | table (table : Table)
  | derived (block : Block)
  /-- A condition on groups without its grouping. -/
  | strayHaving (query : Query)

end

/-- The text of the query that a block stands for. -/
def Block.shape : Block → String
  | .mk body .. => "Select(" ++ body.shape ++ ")"

/-- The places of clauses in a statement, outermost first. -/
inductive Place where
  | order
  | grouping
  | filter
  | joins
  | base
deriving DecidableEq, Repr

def Place.rank : Place → Nat
  | .order => 0
  | .grouping => 1
  | .filter => 2
  | .joins => 3
  | .base => 4

namespace Query

/-- Keeps clauses in the statement being laid out if their place is still free; otherwise they
make a statement of their own, which passes its row through. -/
def fit (here there : Place) (q : Query) (content : Clauses × Base) : Clauses × Base :=
  if here.rank ≤ there.rank then content
  else ({}, .derived (.mk q content.1 content.2 [] none))

/-- The clauses of a statement and its base, for a query that may use the places from `here`
inwards. -/
def layout (here : Place) : Query → Clauses × Base
  | .table t => ({}, .table t)
  | .derived (.select source stages aliases) =>
    let (clauses, base) := source.layout .order
    ({}, .derived (.mk source clauses base stages aliases))
  | .derived inner =>
    let (clauses, base) := inner.layout .order
    ({}, .derived (.mk inner clauses base [] none))
  | .select source stages aliases =>
    let (clauses, base) := source.layout .order
    ({}, .derived (.mk source clauses base stages aliases))
  | .orderBy source keys =>
    let (clauses, base) := source.layout .grouping
    fit here .order (.orderBy source keys) ({ clauses with order := some keys }, base)
  | .groupBy source keys condition =>
    let (clauses, base) := source.layout .filter
    fit here .grouping (.groupBy source keys condition)
      ({ clauses with grouping := some ⟨keys, condition⟩ }, base)
  | .filter source predicate =>
    let (clauses, base) := source.layout .joins
    fit here .filter (.filter source predicate) ({ clauses with filter := some predicate }, base)
  | .join source joins =>
    let (clauses, base) := source.layout .base
    fit here .joins (.join source joins) ({ clauses with joins := some joins }, base)
  | .having source predicate => ({}, .strayHaving (.having source predicate))

/-- The block of a query that ends in a projection. -/
def block? : Query → Option Block
  | .select source stages aliases =>
    let (clauses, base) := source.layout .order
    some (.mk source clauses base stages aliases)
  | _ => none

end Query

end QueryCompiler
