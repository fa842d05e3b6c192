import QueryCompiler.Query.Shape

/-! # `QueryCompiler.Query.Normalize` — fusing clauses

Clauses of one kind that stand directly on each other say the same as one clause:

    filter p₂ (filter p₁ q)           filter (p₁ and p₂) q
    orderBy k₂ (orderBy k₁ q)         orderBy (k₁ ++ k₂) q
    select f₂ (select f₁ q)           select (f₁, then f₂) q, under the outer names
    join j₂ (join j₁ q)               join (j₁ ++ j₂) q
    having p (groupBy k q)            groupBy k q having p, if there was no condition before

A pass fuses the outermost such pair and takes exactly one clause away.  Passes are repeated until
one finds nothing, and a query that does not end in a projection then gets one that passes its row
through.
-/

namespace QueryCompiler.Query

/-- One pass: fuses the outermost pair of clauses that can be fused, and tells whether there was
one. -/
def fuseOnce : Query → Query × Bool
  | .table t => (.table t, false)
  | .derived inner =>
    let (inner, changed) := inner.fuseOnce
    (.derived inner, changed)
  | .filter (.filter source first) second => (.filter source (.binary .and first second), true)
  | .filter source predicate =>
    let (source, changed) := source.fuseOnce
    (.filter source predicate, changed)
  | .orderBy (.orderBy source first) second => (.orderBy source (first ++ second), true)
  | .orderBy source keys =>
    let (source, changed) := source.fuseOnce
    (.orderBy source keys, changed)
  | .select (.select source first _) second aliases =>
    (.select source (first ++ second) aliases, true)
  | .select source stages aliases =>
    let (source, changed) := source.fuseOnce
    (.select source stages aliases, changed)
  | .having (.groupBy source keys none) predicate => (.groupBy source keys (some predicate), true)
  | .having source predicate =>
    let (source, changed) := source.fuseOnce
    (.having source predicate, changed)
  | .groupBy source keys condition =>
    let (source, changed) := source.fuseOnce
    (.groupBy source keys condition, changed)
  | .join (.join source first) second => (.join source (first ++ second), true)
  | .join source joins =>
    let (source, changed) := source.fuseOnce
    (.join source joins, changed)

/-- The number of clauses from the outermost one down to the table. -/
def depth : Query → Nat
  | .table _ => 1
  | .derived inner => inner.depth + 1
  | .select source _ _ => source.depth + 1
  | .filter source _ => source.depth + 1
  | .orderBy source _ => source.depth + 1
  | .groupBy source _ _ => source.depth + 1
  | .having source _ => source.depth + 1
  | .join source _ => source.depth + 1

structure Pass where
  result : Query
  changed : Bool

/-- At most so many passes, up to the first that changes nothing. -/
def passesWithin : Nat → Query → List Pass
  | 0, _ => []
  | n + 1, q =>
    let (result, changed) := q.fuseOnce
    ⟨result, changed⟩ :: if changed then passesWithin n result else []

/-- The passes over a query, the last of which changes nothing.  A pass that changes something
takes a clause away, so the depth bounds their number. -/
def passes (q : Query) : List Pass := passesWithin q.depth q

/-- The query with no pair left to fuse. -/
def fused (q : Query) : Query := ((passes q).getLast?.map (·.result)).getD q

/-- The query as one that ends in a projection. -/
def rooted : Query → Query
  | .select source stages aliases => .select source stages aliases
  | q => q.passThrough

/-- The normal form of a query. -/
def normalize (q : Query) : Query := q.fused.rooted

end QueryCompiler.Query
