import QueryCompiler.Proofs.Building
import QueryCompiler.Proofs.Fusion.Equations

/-! # `QueryCompiler.Proofs.Fusion.Runs` — normal forms by runs

A *pipeline* is a query whose clauses are functions of rows: two of them are equal if their clauses
do the same to every row.  Clauses of one kind that stand directly on each other are a *run*.  The
normal form of a query is found without any passes, by taking each of its runs, from end to end, as
one clause:

    filters p₁ … pₙ        p₁ and (p₂ and (… and pₙ))         innermost first
    orderings k₁ … kₙ      k₁ ++ … ++ kₙ
    projections f₁ … fₙ    first f₁, … , last fₙ, under the names of fₙ
    joins j₁ … jₙ          j₁ ++ … ++ jₙ

A condition on groups goes into the grouping right below it, if that has none.  All else stays where
it is, and a pipeline that does not end in a projection gets one that passes its row through.
-/

namespace QueryCompiler

/-! ## Queries whose clauses are functions -/

/-- A table to join, with functions for its keys and its result. -/
structure JoinSpec where
  kind : JoinKind
  table : Table
  outerKey : Row → Build Expr
  innerKey : Row → Build Expr
  result : Row → Row → Build Row
  aliases : Option (List String)

/-- A chain of clauses over a source, each clause a function of rows. -/
inductive Pipeline where
  | table (table : Table)
  | derived (inner : Pipeline)
  | select (source : Pipeline) (selector : Row → Build Row) (aliases : Option (List String))
  | filter (source : Pipeline) (predicate : Row → Build Expr)
  | orderBy (source : Pipeline) (keys : Row → Build (List (Expr × Direction)))
  | groupBy (source : Pipeline) (keys : Row → Build (List Expr))
      (condition : Option (Row → Build Expr))
  | having (source : Pipeline) (predicate : Row → Build Expr)
  | join (source : Pipeline) (joins : List JoinSpec)

def SortTerm.evalOn (keys : List SortTerm) (scope : Scope) (row : Row) :
    Build (List (Expr × Direction)) := do
  let es ← ExprTerm.evalAllOn (keys.map (·.key)) scope row
  return List.zipWith (fun e key => (e, key.direction)) es keys

def JoinTerm.spec (scope : Scope) (join : JoinTerm) : JoinSpec where
  kind := join.kind
  table := join.table
  outerKey := join.outerKey.evalOn scope
  innerKey := join.innerKey.evalOn scope
  result := join.result.evalJoined scope
  aliases := join.aliases

/-- A query by what its clauses do in a scope. -/
def Query.pipeline (scope : Scope) : Query → Pipeline
  | .table t => .table t
  | .derived inner => .derived (inner.pipeline scope)
  | .select source stages aliases =>
    .select (source.pipeline scope) (RowTerm.runStages scope stages) aliases
  | .filter source predicate => .filter (source.pipeline scope) (predicate.evalOn scope)
  | .orderBy source keys => .orderBy (source.pipeline scope) (SortTerm.evalOn keys scope)
  | .groupBy source keys condition =>
    .groupBy (source.pipeline scope) (ExprTerm.evalAllOn keys scope)
      (condition.map (ExprTerm.evalOn · scope))
  | .having source predicate => .having (source.pipeline scope) (predicate.evalOn scope)
  | .join source joins => .join (source.pipeline scope) (joins.map (JoinTerm.spec scope))

/-! ## Two clauses as one -/

def bothHold (first second : Row → Build Expr) (row : Row) : Build Expr := do
  let left ← first row
  let right ← second row
  Build.node fun id => .binary id .and left right

def keysOfBoth (first second : Row → Build (List (Expr × Direction))) (row : Row) :
    Build (List (Expr × Direction)) := do
  let ks ← first row
  let ls ← second row
  return ks ++ ls

def oneAfterOther (first second : Row → Build Row) (row : Row) : Build Row := first row >>= second

/-! ## Runs -/

/-- Clauses of one kind that stand on each other, the innermost first. -/
structure Run (α : Type) where
  earlier : List α
  last : α

namespace Run

variable {α : Type}

def single (a : α) : Run α := ⟨[], a⟩

def add (r : Run α) (a : α) : Run α := ⟨r.earlier ++ [r.last], a⟩

/-- The run as one clause, where `op` makes one clause of two: `op a₁ (op a₂ (… aₙ))`. -/
def fold (op : α → α → α) (r : Run α) : α := r.earlier.foldr op r.last

/-- The two topmost clauses of a run can be made one before the rest. -/
theorem fold_add_add (op : α → α → α) (r : Run α) (a b : α) :
    ((r.add a).add b).fold op = (r.add (op a b)).fold op := by
  simp [add, fold]

end Run

/-- A pipeline with its runs held together. -/
inductive Runs where
  | table (table : Table)
  | derived (inner : Runs)
  | selects (source : Runs) (run : Run (Row → Build Row)) (aliases : Option (List String))
  | filters (source : Runs) (run : Run (Row → Build Expr))
  | orderBys (source : Runs) (run : Run (Row → Build (List (Expr × Direction))))
  | groupBy (source : Runs) (keys : Row → Build (List Expr)) (condition : Option (Row → Build Expr))
  | having (source : Runs) (predicate : Row → Build Expr)
  | joins (source : Runs) (run : Run (List JoinSpec))

namespace Runs

/-- A projection on top: the last of a run, or a run of its own. -/
def addSelect (selector : Row → Build Row) (aliases : Option (List String)) : Runs → Runs
  | .selects source run _ => .selects source (run.add selector) aliases
  | source => .selects source (.single selector) aliases

def addFilter (predicate : Row → Build Expr) : Runs → Runs
  | .filters source run => .filters source (run.add predicate)
  | source => .filters source (.single predicate)

def addOrderBy (keys : Row → Build (List (Expr × Direction))) : Runs → Runs
  | .orderBys source run => .orderBys source (run.add keys)
  | source => .orderBys source (.single keys)

def addJoin (joins : List JoinSpec) : Runs → Runs
  | .joins source run => .joins source (run.add joins)
  | source => .joins source (.single joins)

/-- A condition on groups on top: it goes into a grouping without one, and stays otherwise. -/
def addHaving (predicate : Row → Build Expr) : Runs → Runs
  | .groupBy source keys none => .groupBy source keys (some predicate)
  | source => .having source predicate

/-- The pipeline in which each run is one clause. -/
def merged : Runs → Pipeline
  | .table t => .table t
  | .derived inner => .derived inner.merged
  | .selects source run aliases => .select source.merged (run.fold oneAfterOther) aliases
  | .filters source run => .filter source.merged (run.fold bothHold)
  | .orderBys source run => .orderBy source.merged (run.fold keysOfBoth)
  | .groupBy source keys condition => .groupBy source.merged keys condition
  | .having source predicate => .having source.merged predicate
  | .joins source run => .join source.merged (run.fold (· ++ ·))

end Runs

namespace Pipeline

/-- The maximal runs of a pipeline. -/
def runs : Pipeline → Runs
  | .table t => .table t
  | .derived inner => .derived inner.runs
  | .select source selector aliases => source.runs.addSelect selector aliases
  | .filter source predicate => source.runs.addFilter predicate
  | .orderBy source keys => source.runs.addOrderBy keys
  | .groupBy source keys condition => .groupBy source.runs keys condition
  | .having source predicate => source.runs.addHaving predicate
  | .join source joins => source.runs.addJoin joins

/-- The pipeline as one that ends in a projection. -/
def rooted : Pipeline → Pipeline
  | .select source selector aliases => .select source selector aliases
  | p => .select p pure none

end Pipeline

/-! ## Fused clauses by what they do -/

variable (scope : Scope)

theorem ExprTerm.evalOn_and (p q : ExprTerm) :
    (ExprTerm.binary .and p q).evalOn scope = bothHold (p.evalOn scope) (q.evalOn scope) := rfl

theorem RowTerm.runStages_append_eq (first second : List RowTerm) :
    RowTerm.runStages scope (first ++ second) =
      oneAfterOther (RowTerm.runStages scope first) (RowTerm.runStages scope second) :=
  funext (RowTerm.runStages_append scope first second)

theorem SortTerm.evalOn_append (first second : List SortTerm) :
    SortTerm.evalOn (first ++ second) scope =
      keysOfBoth (SortTerm.evalOn first scope) (SortTerm.evalOn second scope) := by
  funext row supply
  have hlength := ExprTerm.evalAll_length (.clause row :: scope) (first.map (·.key)) supply
  rw [List.length_map] at hlength
  unfold SortTerm.evalOn keysOfBoth
  simp only [List.map_append, ExprTerm.evalAllOn, ExprTerm.evalAll_append]
  exact Prod.ext (List.zipWith_append hlength) rfl

/-! ## Runs from the outside in -/

namespace Runs

def head : Runs → Query.Head
  | .table _ => .table
  | .derived _ => .derived
  | .selects .. => .select
  | .filters .. => .filter
  | .orderBys .. => .orderBy
  | .groupBy _ _ none => .openGrouping
  | .groupBy _ _ (some _) => .closedGrouping
  | .having .. => .having
  | .joins .. => .join

theorem head_addSelect (r : Runs) (f : Row → Build Row) (aliases : Option (List String)) :
    (r.addSelect f aliases).head = .select := by
  cases r <;> rfl

theorem head_addFilter (r : Runs) (p : Row → Build Expr) : (r.addFilter p).head = .filter := by
  cases r <;> rfl

theorem head_addOrderBy (r : Runs) (k : Row → Build (List (Expr × Direction))) :
    (r.addOrderBy k).head = .orderBy := by
  cases r <;> rfl

theorem head_addJoin (r : Runs) (joins : List JoinSpec) : (r.addJoin joins).head = .join := by
  cases r <;> rfl

theorem head_addHaving (r : Runs) (p : Row → Build Expr) :
    (r.addHaving p).head = .having ∨ (r.addHaving p).head = .closedGrouping := by
  unfold addHaving
  split
  · exact .inr rfl
  · exact .inl rfl

variable {r : Runs}

theorem merged_addSelect (h : r.head ≠ .select) (f : Row → Build Row)
    (aliases : Option (List String)) :
    (r.addSelect f aliases).merged = .select r.merged f aliases := by
  cases r with
  | selects => exact absurd rfl h
  | _ => rfl

theorem merged_addFilter (h : r.head ≠ .filter) (p : Row → Build Expr) :
    (r.addFilter p).merged = .filter r.merged p := by
  cases r with
  | filters => exact absurd rfl h
  | _ => rfl

theorem merged_addOrderBy (h : r.head ≠ .orderBy) (k : Row → Build (List (Expr × Direction))) :
    (r.addOrderBy k).merged = .orderBy r.merged k := by
  cases r with
  | orderBys => exact absurd rfl h
  | _ => rfl

theorem merged_addJoin (h : r.head ≠ .join) (joins : List JoinSpec) :
    (r.addJoin joins).merged = .join r.merged joins := by
  cases r with
  | joins => exact absurd rfl h
  | _ => rfl

theorem merged_addHaving (h : r.head ≠ .openGrouping) (p : Row → Build Expr) :
    (r.addHaving p).merged = .having r.merged p := by
  cases r with
  | groupBy source keys condition =>
      cases condition with
      | none => exact absurd rfl h
      | some => rfl
  | _ => rfl

theorem merged_addSelect_addSelect (r : Runs) (f g : Row → Build Row)
    (inner outer : Option (List String)) :
    ((r.addSelect f inner).addSelect g outer).merged =
      (r.addSelect (oneAfterOther f g) outer).merged := by
  cases r with
  | selects source run => exact congrArg (Pipeline.select _ · _) (run.fold_add_add ..)
  | _ => rfl

theorem merged_addFilter_addFilter (r : Runs) (p q : Row → Build Expr) :
    ((r.addFilter p).addFilter q).merged = (r.addFilter (bothHold p q)).merged := by
  cases r with
  | filters source run => exact congrArg (Pipeline.filter _) (run.fold_add_add ..)
  | _ => rfl

theorem merged_addOrderBy_addOrderBy (r : Runs) (k l : Row → Build (List (Expr × Direction))) :
    ((r.addOrderBy k).addOrderBy l).merged = (r.addOrderBy (keysOfBoth k l)).merged := by
  cases r with
  | orderBys source run => exact congrArg (Pipeline.orderBy _) (run.fold_add_add ..)
  | _ => rfl

theorem merged_addJoin_addJoin (r : Runs) (j k : List JoinSpec) :
    ((r.addJoin j).addJoin k).merged = (r.addJoin (j ++ k)).merged := by
  cases r with
  | joins source run => exact congrArg (Pipeline.join _) (run.fold_add_add ..)
  | _ => rfl

end Runs

/-- The runs of a query have the head of the query, or a condition on groups is gone into its
grouping. -/
theorem Query.head_runs (q : Query) :
    (q.pipeline scope).runs.head = q.head ∨
      q.head = .having ∧ (q.pipeline scope).runs.head = .closedGrouping := by
  cases q with
  | table => exact .inl rfl
  | derived => exact .inl rfl
  | select => exact .inl (Runs.head_addSelect ..)
  | filter => exact .inl (Runs.head_addFilter ..)
  | orderBy => exact .inl (Runs.head_addOrderBy ..)
  | groupBy _ _ condition => cases condition <;> exact .inl rfl
  | having source p =>
      rcases (source.pipeline scope).runs.head_addHaving (p.evalOn scope) with h | h
      · exact .inl h
      · exact .inr ⟨rfl, h⟩
  | join => exact .inl (Runs.head_addJoin ..)

theorem Query.head_runs_ne {q : Query} {h : Query.Head} (hq : q.head ≠ h)
    (hh : h ≠ .closedGrouping) : (q.pipeline scope).runs.head ≠ h := by
  rcases q.head_runs scope with he | ⟨-, he⟩
  · rwa [he]
  · rw [he]
    exact hh.symm

/-! ## The fused query by its runs -/

/-- What passes come to is the pipeline in which each run is one clause. -/
theorem Query.pipeline_fused (q : Query) :
    q.fused.pipeline scope = (q.pipeline scope).runs.merged := by
  -- Two clauses that fuse are replaced by one, so that the query gets smaller; any other clause is
  -- taken off, and starts a run of its own over those of the rest.
  induction hn : q.depth using Nat.strongRecOn generalizing q with
  | ind n ih =>
      have below : ∀ q' : Query, q'.depth < q.depth →
          q'.fused.pipeline scope = (q'.pipeline scope).runs.merged :=
        fun q' h => ih q'.depth (hn ▸ h) q' rfl
      cases q with
      | table t =>
          rw [Query.fused_table]
          rfl
      | derived inner =>
          rw [Query.fused_derived]
          exact congrArg Pipeline.derived (below inner (Nat.lt_succ_self _))
      | groupBy source keys condition =>
          rw [Query.fused_groupBy]
          exact congrArg (Pipeline.groupBy · _ _) (below source (Nat.lt_succ_self _))
      | filter source p =>
          by_cases h : source.head = .filter
          · obtain ⟨inner, p', rfl⟩ := Query.eq_filter_of_head h
            rw [Query.fused_filter_filter,
              below (.filter inner (.binary .and p' p)) (Nat.lt_succ_self _)]
            refine Eq.trans ?_ (Runs.merged_addFilter_addFilter ..).symm
            exact congrArg (fun f => (Runs.addFilter f _).merged) (ExprTerm.evalOn_and scope p' p)
          · rw [Query.fused_filter h]
            refine Eq.trans ?_ (Runs.merged_addFilter (Query.head_runs_ne scope h nofun) _).symm
            exact congrArg (Pipeline.filter · _) (below source (Nat.lt_succ_self _))
      | orderBy source keys =>
          by_cases h : source.head = .orderBy
          · obtain ⟨inner, keys', rfl⟩ := Query.eq_orderBy_of_head h
            rw [Query.fused_orderBy_orderBy,
              below (.orderBy inner (keys' ++ keys)) (Nat.lt_succ_self _)]
            refine Eq.trans ?_ (Runs.merged_addOrderBy_addOrderBy ..).symm
            exact congrArg (fun k => (Runs.addOrderBy k _).merged)
              (SortTerm.evalOn_append scope keys' keys)
          · rw [Query.fused_orderBy h]
            refine Eq.trans ?_ (Runs.merged_addOrderBy (Query.head_runs_ne scope h nofun) _).symm
            exact congrArg (Pipeline.orderBy · _) (below source (Nat.lt_succ_self _))
      | select source stages aliases =>
          by_cases h : source.head = .select
          · obtain ⟨inner, stages', aliases', rfl⟩ := Query.eq_select_of_head h
            rw [Query.fused_select_select,
              below (.select inner (stages' ++ stages) aliases) (Nat.lt_succ_self _)]
            refine Eq.trans ?_ (Runs.merged_addSelect_addSelect ..).symm
            exact congrArg (fun f => (Runs.addSelect f aliases _).merged)
              (RowTerm.runStages_append_eq scope stages' stages)
          · rw [Query.fused_select h]
            refine Eq.trans ?_ (Runs.merged_addSelect (Query.head_runs_ne scope h nofun) _ _).symm
            exact congrArg (Pipeline.select · _ _) (below source (Nat.lt_succ_self _))
      | having source p =>
          by_cases h : source.head = .openGrouping
          · obtain ⟨inner, keys, rfl⟩ := Query.eq_groupBy_of_head h
            rw [Query.fused_having_groupBy]
            refine congrArg (Pipeline.groupBy · _ _) (below inner ?_)
            exact Nat.lt_succ_of_lt (Nat.lt_succ_self _)
          · rw [Query.fused_having h]
            refine Eq.trans ?_ (Runs.merged_addHaving (Query.head_runs_ne scope h nofun) _).symm
            exact congrArg (Pipeline.having · _) (below source (Nat.lt_succ_self _))
      | join source joins =>
          by_cases h : source.head = .join
          · obtain ⟨inner, joins', rfl⟩ := Query.eq_join_of_head h
            rw [Query.fused_join_join, below (.join inner (joins' ++ joins)) (Nat.lt_succ_self _)]
            refine Eq.trans ?_ (Runs.merged_addJoin_addJoin ..).symm
            exact congrArg (fun js => (Runs.addJoin js _).merged) List.map_append
          · rw [Query.fused_join h]
            refine Eq.trans ?_ (Runs.merged_addJoin (Query.head_runs_ne scope h nofun) _).symm
            exact congrArg (Pipeline.join · _) (below source (Nat.lt_succ_self _))

theorem Query.pipeline_rooted (q : Query) :
    q.rooted.pipeline scope = (q.pipeline scope).rooted := by
  cases q <;> rfl

/-- The normal form of a query does what the query does with each of its runs taken as one clause,
under a projection. -/
theorem normalize_pipeline (scope : Scope) (q : Query) :
    q.normalize.pipeline scope = (q.pipeline scope).runs.merged.rooted := by
  refine (Query.pipeline_rooted scope q.fused).trans ?_
  rw [Query.pipeline_fused]

end QueryCompiler
