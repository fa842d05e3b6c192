import QueryCompiler.Proofs.Building
import QueryCompiler.Proofs.Outputs
import QueryCompiler.Proofs.Rules

/-! # `QueryCompiler.Proofs.Visits` — what is compiled in the course of a compilation

To say something of every statement of a compilation, or of every expression that it comes by, these
have to be found first: a statement is compiled inside another one as its derived table, or as a
subquery somewhere in one of its expressions, and what is compiled at which moment depends on all
that came before.

    a block          its derived table, if it has one, and the expressions of each clause
    expressions      the operands that they write, and the blocks of their subqueries

`SelectRun` says how a block is compiled, clause by clause, and `Visit.Reaches` is the closure of the
table above.  If a compilation succeeds, so does all that it reaches, and contexts evolve from where
it starts to each visit, and from there to where it ends.
-/

namespace QueryCompiler

open CompileM

/-! ## Parts of blocks and statements -/

namespace Block

def clauses : Block → Clauses
  | .mk _ clauses _ _ _ => clauses

def base : Block → Base
  | .mk _ _ base _ _ => base

def stages : Block → List RowTerm
  | .mk _ _ _ stages _ => stages

end Block

namespace Sql

def Output.value : Output → Scalar
  | .mk value _ => value

def OrderItem.key : OrderItem → Scalar
  | .mk key _ => key

def OrderItem.direction : OrderItem → Direction
  | .mk _ direction => direction

/-- How a join matches rows, and with what. -/
def Join.head : Join → JoinKind × String
  | .mk kind table .. => (kind, table)

namespace Select

def source : Select → Source
  | .mk _ source .. => source

def joins : Select → List Join
  | .mk _ _ joins .. => joins

def filter : Select → Option Scalar
  | .mk _ _ _ filter .. => filter

def keys : Select → List Scalar
  | .mk _ _ _ _ keys _ _ => keys

def having : Select → Option Scalar
  | .mk _ _ _ _ _ having _ => having

def order : Select → List OrderItem
  | .mk _ _ _ _ _ _ order => order

end Select

theorem Output.map_value_zipWith : ∀ {sqls : List Scalar} {names : List String},
    sqls.length = names.length → (List.zipWith Output.mk sqls names).map Output.value = sqls
  | [], [], _ => rfl
  | sql :: _, _ :: _, h => congrArg (sql :: ·) (map_value_zipWith (Nat.succ.inj h))

theorem OrderItem.map_key_zipWith : ∀ {sqls : List Scalar} {keys : List SortTerm},
    sqls.length = keys.length → (List.zipWith
      (fun sql key => OrderItem.mk sql key.direction) sqls keys).map OrderItem.key = sqls
  | [], [], _ => rfl
  | sql :: _, _ :: _, h => congrArg (sql :: ·) (map_key_zipWith (Nat.succ.inj h))

theorem OrderItem.map_direction_zipWith : ∀ {sqls : List Scalar} {keys : List SortTerm},
    sqls.length = keys.length → (List.zipWith (fun sql key => OrderItem.mk sql key.direction) sqls
      keys).map OrderItem.direction = keys.map SortTerm.direction
  | [], [], _ => rfl
  | _ :: _, _ :: _, h => congrArg (_ :: ·) (map_direction_zipWith (Nat.succ.inj h))

end Sql

/-! ## Clauses -/

/-- Expressions that are built at a moment, and written from then on. -/
structure Batch (sub : SubqueryCompiler) (build : Build (List Expr)) (μ : Moment) where
  nodes : List Expr
  texts : List Sql.Scalar
  start : Moment
  stop : Moment
  built : (CompileM.build build).Takes μ nodes start
  writes : WritesAll sub nodes start texts stop

/-- The expression of a term over a row, if there is one. -/
def ExprTerm.nodesOn (scope : Scope) : Option ExprTerm → Row → Build (List Expr)
  | none, _ => pure []
  | some term, row => do return [← term.evalOn scope row]

namespace Grouping

/-- The keys of a grouping over a row. -/
def nodesOn (scope : Scope) : Option Grouping → Row → Build (List Expr)
  | none, _ => pure []
  | some grouping, row => ExprTerm.evalAllOn grouping.keys scope row

/-- The row behind a grouping with such keys. -/
def behind (keys : List Expr) : Option Grouping → Row → Row
  | none, row => row
  | some _, row => .group (.tuple (keys.map .expr)) row

end Grouping

/-- The nodes that the stages of a projection make of a row. -/
def RowTerm.nodesOn (scope : Scope) (stages : List RowTerm) (row : Row) : Build (List Expr) := do
  return (← RowTerm.runStages scope stages row).flatten

section

variable {sub : SubqueryCompiler} {scope : Scope} {μ ν κ : Moment}

/-- Joins, with the keys that they write, the moments from which they do, and what is written: each
join has the kind and the table of its term, the alias that the table is opened under, and the
written forms of its two keys. -/
inductive JoinsRun (sub : SubqueryCompiler) (scope : Scope) :
    List JoinTerm → Row → Moment → List (List Expr × Moment) → List Sql.Join → Row → Moment → Prop
  | nil {row μ} : JoinsRun sub scope [] row μ [] [] row μ
  | cons {join joins row label inner outerSql innerSql paired μ κ ξ keys sqls row' ν}
      (outerKey : Batch sub (ExprTerm.nodesOn scope (some join.outerKey) row) κ)
      (innerKey : Batch sub (ExprTerm.nodesOn scope (some join.innerKey) inner) outerKey.stop) :
      (compileTable join.table).Takes μ (.table join.table.name label, inner) κ →
      outerKey.texts = [outerSql] → innerKey.texts = [innerSql] →
      (CompileM.build (join.result.evalJoined scope row inner)).Takes innerKey.stop paired ξ →
      JoinsRun sub scope joins paired ξ keys sqls row' ν →
      JoinsRun sub scope (join :: joins) row μ
        ((outerKey.nodes, outerKey.start) :: (innerKey.nodes, innerKey.start) :: keys)
        (.mk join.kind join.table.name label outerSql innerSql :: sqls) row' ν

/-- A single expression is built and written. -/
theorem exists_batch {term : ExprTerm} {row : Row} {e : Expr} {t : Sql.Scalar}
    (he : (CompileM.build (term.evalOn scope row)).Takes μ e κ)
    (ht : (e.compile sub).Takes κ t ν) :
    ∃ b : Batch sub (ExprTerm.nodesOn scope (some term) row) μ,
      b.texts = [t] ∧ b.stop = ν := by
  refine ⟨⟨[e], [t], κ, ν, ?_, .one (e.writes ht)⟩, rfl, rfl⟩
  obtain ⟨rfl, hctx, hs⟩ := takes_build.1 he
  exact takes_build.2 ⟨rfl, hctx, hs⟩

theorem exists_joinsRun : ∀ {joins : List JoinTerm} {row : Row} {μ ν : Moment}
    {r : List Sql.Join × Row}, (compileJoins sub scope joins row).Takes μ r ν →
      ∃ keys, JoinsRun sub scope joins row μ keys r.1 r.2 ν
  | [], _, _, _, _, h => by
      obtain ⟨rfl, rfl⟩ := takes_pure.1 h
      exact ⟨[], .nil⟩
  | join :: joins, _, _, _, _, h => by
      simp only [compileJoins, compileJoin, takes_bind, takes_pure] at h
      obtain ⟨_, _, ⟨columns, _, hcolumns, label, _, hlabel, _, _, hregister, _, _, houter, _, _,
        houterSql, _, _, hinner, _, _, hinnerSql, paired, _, hpaired, rfl, rfl⟩, _, _, hjoins, rfl,
        rfl⟩ := h
      obtain ⟨outerKey, houterTexts, rfl⟩ := exists_batch houter houterSql
      obtain ⟨innerKey, hinnerTexts, rfl⟩ := exists_batch hinner hinnerSql
      obtain ⟨keys, hkeys⟩ := exists_joinsRun hjoins
      have htable : (compileTable join.table).Takes _
          (.table join.table.name label, .table join.table columns) _ :=
        takes_bind.2 ⟨columns, _, hcolumns, takes_bind.2 ⟨label, _, hlabel,
          takes_bind.2 ⟨(), _, hregister, takes_pure.2 ⟨rfl, rfl⟩⟩⟩⟩
      exact ⟨_, .cons outerKey innerKey htable houterTexts hinnerTexts hpaired hkeys⟩

/-! ## Statements -/

/-- How a block is compiled: what it reads from, then each of its clauses, over the row that those
before it leave. -/
structure SelectRun (sub : SubqueryCompiler) (scope : Scope) (block : Block) (start : Moment) where
  -- the moments behind the report, the base and the joins, with what these leave
  entered : Moment
  source : Sql.Source
  row : Row
  opened : Moment
  joinKeys : List (List Expr × Moment)
  joined : Row
  joinedAt : Moment
  -- the clauses, each where the one before it stops
  filter : Batch sub (ExprTerm.nodesOn scope block.clauses.filter joined) joinedAt
  keys : Batch sub (Grouping.nodesOn scope block.clauses.grouping joined) filter.stop
  having : Batch sub (ExprTerm.nodesOn scope (block.clauses.grouping.bind (·.having)) joined)
    keys.stop
  order : Batch sub (ExprTerm.evalAllOn ((block.clauses.order.getD []).map (·.key)) scope
    (Grouping.behind keys.nodes block.clauses.grouping joined)) having.stop
  outputs : Batch sub (RowTerm.nodesOn scope block.stages
    (Grouping.behind keys.nodes block.clauses.grouping joined)) order.stop
  -- what becomes of it
  compiled : Compiled
  stop : Moment
  entered_eq : start.context = entered.context
  base_takes : (block.base.compile sub scope).Takes entered (source, row) opened
  joins_run : JoinsRun sub scope (block.clauses.joins.getD []) row opened joinKeys
    compiled.select.joins joined joinedAt
  source_eq : compiled.select.source = source
  filter_eq : compiled.select.filter.toList = filter.texts
  keys_eq : compiled.select.keys = keys.texts
  having_eq : compiled.select.having.toList = having.texts
  order_eq : compiled.select.order.map (·.key) = order.texts
  outputs_eq : compiled.select.outputs.map (·.value) = outputs.texts
  stop_eq : stop.context = outputs.stop.context
  takes : (block.compile sub scope).Takes start compiled stop

/-- The same with where it starts from, and all that the clauses leave in the statement. -/
structure StatementRun (sub : SubqueryCompiler) (scope : Scope) (block : Block) (start : Moment)
    extends SelectRun sub scope block start where
  entered_takes : (CompileM.report (.select block.shape start.context.indent)).Takes start () entered
  joins_takes : (compileJoinClause sub scope block.clauses.joins row).Takes opened
    (compiled.select.joins, joined) joinedAt
  keys_nonempty : block.clauses.grouping ≠ none → keys.nodes ≠ []
  directions_eq : compiled.select.order.map (·.direction) =
    (block.clauses.order.getD []).map (·.direction)
  supply_eq : stop.session.supply = outputs.stop.session.supply
  row_takes : (CompileM.build (RowTerm.runStages scope block.stages
    (Grouping.behind keys.nodes block.clauses.grouping joined))).Takes order.stop compiled.row
      outputs.start
  nodes_eq : outputs.nodes = compiled.row.flatten
  fields_eq : compiled.fields.map (·.expr) = outputs.nodes

theorem exists_joinsRun_of_clause {joins : Option (List JoinTerm)} {row : Row}
    {r : List Sql.Join × Row} (h : (compileJoinClause sub scope joins row).Takes μ r ν) :
    ∃ keys, JoinsRun sub scope (joins.getD []) row μ keys r.1 r.2 ν := by
  match joins with
  | none =>
      obtain ⟨rfl, rfl⟩ := takes_pure.1 h
      exact ⟨[], .nil⟩
  | some [] => exact (takes_throw.1 h).elim
  | some (join :: joins) => exact exists_joinsRun h

def Batch.empty (sub : SubqueryCompiler) (μ : Moment) : Batch sub (pure []) μ :=
  ⟨[], [], μ, μ, takes_build.2 ⟨rfl, rfl, rfl⟩, .nil⟩

theorem exists_batch_of_condition {predicate : Option ExprTerm} {row : Row} {r : Option Sql.Scalar}
    (h : (compileCondition sub scope predicate row).Takes μ r ν) :
    ∃ b : Batch sub (ExprTerm.nodesOn scope predicate row) μ, r.toList = b.texts ∧ b.stop = ν := by
  cases predicate with
  | none =>
      obtain ⟨rfl, rfl⟩ := takes_pure.1 h
      exact ⟨.empty sub μ, rfl, rfl⟩
  | some term =>
      simp only [compileCondition, takes_bind, takes_pure] at h
      obtain ⟨e, κ, he, t, ξ, ht, rfl, rfl⟩ := h
      obtain ⟨b, htexts, hstop⟩ := exists_batch he ht
      exact ⟨b, htexts.symm, hstop⟩

theorem exists_batches_of_grouping {grouping : Option Grouping} {row : Row}
    {r : List Sql.Scalar × Option Sql.Scalar × Row}
    (h : (compileGrouping sub scope grouping row).Takes μ r ν) :
    ∃ (keys : Batch sub (Grouping.nodesOn scope grouping row) μ)
      (having : Batch sub (ExprTerm.nodesOn scope (grouping.bind (·.having)) row) keys.stop),
      r = (keys.texts, r.2.1, Grouping.behind keys.nodes grouping row) ∧
        r.2.1.toList = having.texts ∧ having.stop = ν ∧ (grouping ≠ none → keys.nodes ≠ []) := by
  cases grouping with
  | none =>
      obtain ⟨rfl, rfl⟩ := takes_pure.1 h
      exact ⟨.empty sub μ, .empty sub μ, rfl, rfl, rfl, fun h => absurd rfl h⟩
  | some grouping =>
      simp only [compileGrouping, takes_bind] at h
      obtain ⟨keys, κ, hkeys, h⟩ := h
      split at h
      · exact (takes_throw.1 h).elim
      · next hnonempty =>
          simp only [takes_bind, takes_pure] at h
          obtain ⟨ts, ξ, hts, having, ζ, hhaving, rfl, rfl⟩ := h
          obtain ⟨b, htexts, hstop⟩ := exists_batch_of_condition hhaving
          exact ⟨⟨keys, ts, κ, ξ, hkeys, Expr.writesAll keys hts⟩, b, rfl, htexts, hstop,
            fun _ hnil => hnonempty (List.isEmpty_iff.2 hnil)⟩

theorem exists_batch_of_order {keys : List SortTerm} {row : Row} {r : List Sql.OrderItem}
    (h : (compileOrder sub scope keys row).Takes μ r ν) :
    ∃ b : Batch sub (ExprTerm.evalAllOn (keys.map (·.key)) scope row) μ,
      r.map (·.key) = b.texts ∧ b.stop = ν ∧ r.map (·.direction) = keys.map (·.direction) := by
  simp only [compileOrder, takes_bind, takes_pure] at h
  obtain ⟨es, κ, hes, ts, ξ, hts, rfl, rfl⟩ := h
  have hw := Expr.writesAll es hts
  have hlength : ts.length = keys.length := by
    obtain ⟨rfl, -, -⟩ := takes_build.1 hes
    rw [hw.length_eq, ExprTerm.evalAllOn, ExprTerm.evalAll_length, List.length_map]
  exact ⟨⟨es, ts, κ, ξ, hes, hw⟩, Sql.OrderItem.map_key_zipWith hlength, rfl,
    Sql.OrderItem.map_direction_zipWith hlength⟩

/-- Looking at the given names changes the record at most. -/
theorem givenNames_still {given : Option (List String)} {width : Nat} {names : List String}
    (h : (givenNames given width).Takes μ names ν) :
    ν.context = μ.context ∧ ν.session.supply = μ.session.supply := by
  cases given with
  | none =>
      obtain ⟨-, rfl⟩ := takes_pure.1 h
      exact ⟨rfl, rfl⟩
  | some given =>
      change CompileM.Takes (if given.length = width then _ else _) _ _ _ at h
      split at h
      · obtain ⟨-, rfl⟩ := takes_pure.1 h
        exact ⟨rfl, rfl⟩
      · simp only [takes_bind, takes_pure] at h
        obtain ⟨_, _, hreport, -, rfl⟩ := h
        obtain ⟨hctx, hs⟩ := report_eq_ok.1 hreport
        exact ⟨hctx.symm, hs ▸ rfl⟩

/-- A projection is built and written; behind it only names are looked for. -/
theorem exists_batch_of_projection {stages : List RowTerm} {given : Option (List String)}
    {row projected : Row} {r : List Sql.Output × List Field}
    (hrow : (CompileM.build (RowTerm.runStages scope stages row)).Takes μ projected κ)
    (h : (compileProjection sub given projected).Takes κ r ν) :
    ∃ b : Batch sub (RowTerm.nodesOn scope stages row) μ,
      r.1.map (·.value) = b.texts ∧ (ν.context = b.stop.context ∧
        ν.session.supply = b.stop.session.supply) ∧ b.start = κ ∧
        b.nodes = projected.flatten ∧ r.2.map (·.expr) = b.nodes := by
  unfold compileProjection at h
  dsimp only at h
  split at h
  · exact (takes_throw.1 h).elim
  · simp only [takes_bind, takes_get, takes_pure] at h
    obtain ⟨ts, ξ, hts, names, ζ, hnames, _, _, ⟨rfl, rfl⟩, rfl, rfl⟩ := h
    have hw := Expr.writesAll _ hts
    refine ⟨⟨projected.flatten, ts, κ, ξ, ?_, hw⟩, ?_, givenNames_still hnames, rfl, rfl, ?_⟩
    · obtain ⟨rfl, hctx, hs⟩ := takes_build.1 hrow
      exact takes_build.2 ⟨rfl, hctx, hs⟩
    · exact Sql.Output.map_value_zipWith (hw.length_eq.trans (length_outputNames _ _ _).symm)
    · exact Field.map_expr_zipWith (length_outputNames _ _ _)

/-- Every block that is compiled is compiled clause by clause. -/
theorem exists_statementRun {block : Block} {compiled : Compiled}
    (h : (block.compile sub scope).Takes μ compiled ν) :
    ∃ run : StatementRun sub scope block μ, run.compiled = compiled ∧ run.stop = ν := by
  obtain ⟨body, clauses, base, stages, aliases⟩ := block
  have htakes := h
  simp only [Block.compile, compileClauses, takes_bind, takes_get, takes_pure] at h
  obtain ⟨_, _, ⟨rfl, rfl⟩, _, entered, hentered, ⟨source, row⟩, opened, hbase, ⟨joins, joined⟩,
    joinedAt, hjoins, filterSql, _, hfilter, ⟨keySql, havingSql, grouped⟩, _, hgrouping, orderSql, _,
    horder, projected, _, hprojected, ⟨outputSql, fields⟩, stop, hprojection, rfl, rfl⟩ := h
  obtain ⟨joinKeys, hrun⟩ := exists_joinsRun_of_clause hjoins
  obtain ⟨filter, hfilterEq, rfl⟩ := exists_batch_of_condition hfilter
  obtain ⟨keys, having, hgroup, hhaving, rfl, hnonempty⟩ := exists_batches_of_grouping hgrouping
  obtain ⟨rfl, -, rfl⟩ := Prod.mk.injEq .. ▸ hgroup
  obtain ⟨order, horderEq, rfl, hdirections⟩ := exists_batch_of_order horder
  obtain ⟨outputs, houtputs, ⟨hstop, hsupply⟩, rfl, hnodes, hfields⟩ :=
    exists_batch_of_projection hprojected hprojection
  exact ⟨{
    entered, source, row, opened, joinKeys, joined, joinedAt, filter, keys, having, order, outputs
    compiled := ⟨.mk outputSql source joins filterSql keys.texts havingSql orderSql, projected, fields⟩
    stop
    entered_eq := (report_eq_ok.1 hentered).1
    base_takes := hbase
    joins_run := hrun
    source_eq := rfl
    keys_eq := rfl
    having_eq := hhaving
    order_eq := horderEq
    outputs_eq := houtputs
    stop_eq := hstop
    takes := htakes
    entered_takes := hentered
    joins_takes := hjoins
    filter_eq := hfilterEq
    keys_nonempty := hnonempty
    directions_eq := hdirections
    supply_eq := hsupply
    row_takes := hprojected
    nodes_eq := hnodes
    fields_eq := hfields }, rfl, rfl⟩

theorem exists_selectRun {block : Block} {compiled : Compiled}
    (h : (block.compile sub scope).Takes μ compiled ν) :
    ∃ run : SelectRun sub scope block μ, run.compiled = compiled ∧ run.stop = ν := by
  obtain ⟨run, hcompiled, hstop⟩ := exists_statementRun h
  exact ⟨run.toSelectRun, hcompiled, hstop⟩

/-! ## What is written when -/

/-- In the course from `μ` to `ν` the expressions are written, from `κ` on. -/
def WrittenBetween (sub : SubqueryCompiler) (μ ν : Moment) (es : List Expr) (κ : Moment) : Prop :=
  μ.context.Evolves κ.context ∧ ∃ ts ξ, WritesAll sub es κ ts ξ ∧ ξ.context.Evolves ν.context

theorem WrittenBetween.widen {es : List Expr} {μ' ν' : Moment}
    (h : WrittenBetween sub μ ν es κ) (hμ : μ'.context.Evolves μ.context)
    (hν : ν.context.Evolves ν'.context) : WrittenBetween sub μ' ν' es κ := by
  obtain ⟨hκ, ts, ξ, hw, hξ⟩ := h
  exact ⟨hμ.trans hκ, ts, ξ, hw, hξ.trans hν⟩

namespace Batch

variable {build : Build (List Expr)}

theorem evolves_start (b : Batch sub build μ) : μ.context.Evolves b.start.context :=
  (Evolves.build build).takes b.built

theorem evolves (hsub : sub.Evolves) (b : Batch sub build μ) :
    μ.context.Evolves b.stop.context :=
  b.evolves_start.trans (b.writes.evolves hsub)

theorem between (b : Batch sub build μ) : WrittenBetween sub μ b.stop b.nodes b.start :=
  ⟨b.evolves_start, b.texts, b.stop, b.writes, .refl⟩

end Batch

section

variable {joins : List JoinTerm} {row row' : Row} {keys : List (List Expr × Moment)}
  {sqls : List Sql.Join}

theorem JoinsRun.evolves (hsub : sub.Evolves)
    (h : JoinsRun sub scope joins row μ keys sqls row' ν) :
    μ.context.Evolves ν.context := by
  induction h with
  | nil => exact .refl
  | cons outerKey innerKey htable _ _ hpaired _ ih =>
      exact ((compileTable_evolves _).takes htable).trans ((outerKey.evolves hsub).trans
        ((innerKey.evolves hsub).trans (((Evolves.build _).takes hpaired).trans ih)))

theorem JoinsRun.between (hsub : sub.Evolves)
    (h : JoinsRun sub scope joins row μ keys sqls row' ν) :
    ∀ p ∈ keys, WrittenBetween sub μ ν p.1 p.2 := by
  induction h with
  | nil => simp
  | cons outerKey innerKey htable _ _ hpaired hrest ih =>
      have htable := (compileTable_evolves _).takes htable
      have hrest := ((Evolves.build _).takes hpaired).trans (hrest.evolves hsub)
      rw [List.forall_mem_cons, List.forall_mem_cons]
      refine ⟨outerKey.between.widen htable ((innerKey.evolves hsub).trans hrest),
        innerKey.between.widen (htable.trans (outerKey.evolves hsub)) hrest, fun p hp => ?_⟩
      exact (ih p hp).widen (htable.trans ((outerKey.evolves hsub).trans
        ((innerKey.evolves hsub).trans ((Evolves.build _).takes hpaired)))) .refl

/-- Each join is of its term's kind and reads its term's table. -/
theorem JoinsRun.heads_eq (h : JoinsRun sub scope joins row μ keys sqls row' ν) :
    sqls.map (·.head) = joins.map fun join => (join.kind, join.table.name) := by
  induction h with
  | nil => rfl
  | cons _ _ _ _ _ _ _ ih => exact congrArg _ ih

end

namespace SelectRun

variable {block : Block}

/-- The expressions of the clauses, with the moments from which they are written. -/
def expressions (run : SelectRun sub scope block μ) : List (List Expr × Moment) :=
  run.joinKeys ++ [(run.filter.nodes, run.filter.start), (run.keys.nodes, run.keys.start),
    (run.having.nodes, run.having.start), (run.order.nodes, run.order.start),
    (run.outputs.nodes, run.outputs.start)]

theorem evolves_opened (hsub : sub.Evolves) (run : SelectRun sub scope block μ) :
    μ.context.Evolves run.opened.context := by
  rw [run.entered_eq]
  exact (Base.compile_evolves scope hsub block.base).takes run.base_takes

/-- From the start of the statement on to where its grouping is written. -/
theorem evolves_keys (hsub : sub.Evolves) (run : SelectRun sub scope block μ) :
    μ.context.Evolves run.keys.start.context :=
  (run.evolves_opened hsub).trans ((run.joins_run.evolves hsub).trans
    ((run.filter.evolves hsub).trans run.keys.evolves_start))

theorem evolves_of_opened (hsub : sub.Evolves) (run : SelectRun sub scope block μ) :
    run.opened.context.Evolves run.stop.context := by
  rw [run.stop_eq]
  exact (run.joins_run.evolves hsub).trans ((run.filter.evolves hsub).trans
    ((run.keys.evolves hsub).trans ((run.having.evolves hsub).trans
      ((run.order.evolves hsub).trans (run.outputs.evolves hsub)))))

theorem between (hsub : sub.Evolves) (run : SelectRun sub scope block μ) :
    ∀ p ∈ run.expressions, WrittenBetween sub μ run.stop p.1 p.2 := by
  have houtputs : run.outputs.stop.context.Evolves run.stop.context := run.stop_eq ▸ .refl
  -- from the start on to each clause, and from each clause on to the end
  have hjoined := (run.evolves_opened hsub).trans (run.joins_run.evolves hsub)
  have hfilter := hjoined.trans (run.filter.evolves hsub)
  have hkeys := hfilter.trans (run.keys.evolves hsub)
  have hhaving := hkeys.trans (run.having.evolves hsub)
  have horder := hhaving.trans (run.order.evolves hsub)
  have horder' := (run.outputs.evolves hsub).trans houtputs
  have hhaving' := (run.order.evolves hsub).trans horder'
  have hkeys' := (run.having.evolves hsub).trans hhaving'
  have hfilter' := (run.keys.evolves hsub).trans hkeys'
  have hjoined' := (run.filter.evolves hsub).trans hfilter'
  rw [expressions, List.forall_mem_append]
  constructor
  · exact fun p hp => (run.joins_run.between hsub p hp).widen (run.evolves_opened hsub) hjoined'
  · simp only [List.forall_mem_cons]
    exact ⟨run.filter.between.widen hjoined hfilter', run.keys.between.widen hfilter hkeys',
      run.having.between.widen hkeys hhaving', run.order.between.widen hhaving horder',
      run.outputs.between.widen horder houtputs, List.forall_mem_nil _⟩

end SelectRun

end

/-! ## Visits -/

/-- What is compiled at some point. -/
inductive Task where
  | block (scope : Scope) (block : Block)
  | exprs (es : List Expr)

/-- Something that is compiled from a moment on, with subqueries nesting at most so deep. -/
structure Visit where
  depth : Nat
  task : Task
  start : Moment

/-- The visit succeeds and ends at the moment. -/
def Visit.Ends (v : Visit) (ν : Moment) : Prop :=
  match v.task with
  | .block scope block =>
    ∃ compiled, (block.compile (compileWithin v.depth) scope).Takes v.start compiled ν
  | .exprs es => ∃ ts, WritesAll (compileWithin v.depth) es v.start ts ν

/-- In the course of the first visit the second takes place. -/
inductive Visit.Reaches (v : Visit) : Visit → Prop
  | refl : Reaches v v
  /-- The derived table of a block. -/
  | derived {depth scope block inner μ} (run : SelectRun (compileWithin depth) scope block μ) :
      Reaches v ⟨depth, .block scope block, μ⟩ → block.base = .derived inner →
      Reaches v ⟨depth, .block scope inner, run.entered.deeper 1⟩
  /-- The expressions of a clause. -/
  | clause {depth scope block es μ κ} (run : SelectRun (compileWithin depth) scope block μ) :
      Reaches v ⟨depth, .block scope block, μ⟩ → (es, κ) ∈ run.expressions →
      Reaches v ⟨depth, .exprs es, κ⟩
  /-- The operands that one of the expressions writes. -/
  | operands {depth es e es' us os ts t μ κ ξ} :
      Reaches v ⟨depth, .exprs (es ++ e :: es'), μ⟩ →
      WritesAll (compileWithin depth) es μ us κ → κ.referenceOf e.id = none →
      e.Assembles os ts t → WritesAll (compileWithin depth) os κ ts ξ →
      Reaches v ⟨depth, .exprs os, κ⟩
  /-- The needle that is looked for in a subquery. -/
  | needle {depth es id needle query scope es' us μ κ} :
      Reaches v ⟨depth, .exprs (es ++ .inQuery id needle query scope :: es'), μ⟩ →
      WritesAll (compileWithin depth) es μ us κ → κ.referenceOf id = none →
      Reaches v ⟨depth, .exprs [needle], κ⟩
  /-- The subquery itself. -/
  | subquery {depth es id needle query scope es' us t normal block μ κ ξ ζ} :
      Reaches v ⟨depth + 1, .exprs (es ++ .inQuery id needle query scope :: es'), μ⟩ →
      WritesAll (compileWithin (depth + 1)) es μ us κ → κ.referenceOf id = none →
      Writes (compileWithin (depth + 1)) needle κ t ξ →
      (CompileM.normalize query).Takes ξ normal ζ → normal.block? = some block →
      Reaches v ⟨depth, .block scope block, ζ.deeper 2⟩

namespace Visit.Reaches

variable {v w : Visit} {ν : Moment}

/-- What a successful compilation reaches succeeds. -/
theorem ends (h : v.Reaches w) (hν : v.Ends ν) :
    ∃ ξ, w.Ends ξ ∧ v.start.context.Evolves w.start.context ∧ ξ.context.Evolves ν.context := by
  -- what was reached last determines where the next visit starts, since runs are unique
  induction h with
  | refl => exact ⟨ν, hν, .refl, .refl⟩
  | derived run _ hbase ih =>
      obtain ⟨ξ, ⟨compiled, hblock⟩, hstart, hξ⟩ := ih
      obtain ⟨-, rfl⟩ := hblock.unique run.takes
      have hinner := run.base_takes
      rw [hbase, Base.compile, takes_bind] at hinner
      obtain ⟨inner, κ, hinner, hderived⟩ := hinner
      obtain ⟨ζ, hblock, hζ⟩ := hinner.indented
      refine ⟨ζ, ⟨inner, hblock⟩, hstart.trans ?_, ?_⟩
      · rw [run.entered_eq]
        exact .indent _ .refl
      · exact ((hζ.trans ((compileDerived_evolves inner).takes hderived)).trans
          (run.evolves_of_opened (compileWithin_evolves _))).trans hξ
  | clause run _ hmem ih =>
      obtain ⟨ξ, ⟨compiled, hblock⟩, hstart, hξ⟩ := ih
      obtain ⟨-, rfl⟩ := hblock.unique run.takes
      obtain ⟨hκ, ts, ζ, hw, hζ⟩ := run.between (compileWithin_evolves _) _ hmem
      exact ⟨ζ, ⟨ts, hw⟩, hstart.trans hκ, hζ.trans hξ⟩
  | operands _ hes hid ha hos ih =>
      obtain ⟨ξ, ⟨ts, hall⟩, hstart, hξ⟩ := ih
      obtain ⟨t, -, ζ, he, hζ⟩ := hall.split (compileWithin_evolves _) hes
      obtain ⟨-, rfl⟩ := he.unique (.assembled hid ha hos)
      exact ⟨_, ⟨_, hos⟩, hstart.trans (hes.evolves (compileWithin_evolves _)), hζ.trans hξ⟩
  | needle _ hes hid ih =>
      obtain ⟨ξ, ⟨ts, hall⟩, hstart, hξ⟩ := ih
      obtain ⟨t, -, ζ, he, hζ⟩ := hall.split (compileWithin_evolves _) hes
      obtain ⟨n, κ, normal, ω, select, hneedle, hnormal, hselect, -⟩ := he.of_inQuery hid
      refine ⟨κ, ⟨[n], .one hneedle⟩, hstart.trans (hes.evolves (compileWithin_evolves _)), ?_⟩
      exact (((Evolves.normalize _).takes hnormal).trans
        (((compileWithin_evolves _ _ _).indented 2).takes hselect)).trans (hζ.trans hξ)
  | subquery _ hes hid hneedle hnormal hblock ih =>
      obtain ⟨ξ, ⟨ts, hall⟩, hstart, hξ⟩ := ih
      obtain ⟨t, -, ζ, he, hζ⟩ := hall.split (compileWithin_evolves _) hes
      obtain ⟨n, κ, normal, ω, select, hneedle', hnormal', hselect, -⟩ := he.of_inQuery hid
      obtain ⟨-, rfl⟩ := hneedle.unique hneedle'
      obtain ⟨rfl, rfl⟩ := hnormal.unique hnormal'
      obtain ⟨η, hsub, hη⟩ := hselect.indented
      obtain ⟨compiled, hcompiled, -⟩ := takes_compileWithin_succ.1 hsub
      rw [Query.compile, hblock] at hcompiled
      refine ⟨_, ⟨compiled, hcompiled⟩, ?_, hη.trans (hζ.trans hξ)⟩
      exact hstart.trans ((hes.evolves (compileWithin_evolves _)).trans
        ((hneedle.evolves (compileWithin_evolves _)).trans
          (((Evolves.normalize _).takes hnormal).trans (.indent _ .refl))))

end Visit.Reaches

/-! ## Whole compilations -/

section

variable {d : Dialect} {scope : Scope} {session : Session} {q : Query} {c : CompiledQuery}

/-- What comes before the statement of a query: a report, and its passes. -/
def Query.enter (d : Dialect) (q : Query) : CompileM Query := do
  CompileM.report (.enteredQuery d)
  CompileM.normalize q

/-- What is compiled in the course of compiling a query from the empty context. -/
def Query.Visits (d : Dialect) (scope : Scope) (session : Session) (q : Query) (v : Visit) : Prop :=
  ∃ block μ, (q.enter d).Takes ⟨.empty d, session⟩ q.normalize μ ∧
    q.normalize.block? = some block ∧
    Visit.Reaches ⟨q.normalize.subqueries + scope.nesting, .block scope block, μ⟩ v

theorem compileQuery_takes (h : (compileQuery d scope q session).1 = .ok c) :
    ∃ μ compiled ν, (q.enter d).Takes ⟨.empty d, session⟩ q.normalize μ ∧
      (q.normalize.compileIn scope).Takes μ compiled ν ∧
      c = ⟨compiled.select.render d 0, ν.context.params⟩ := by
  obtain ⟨ctx, s', htext⟩ := start_eq_ok.1 h
  have htakes : (q.compileText scope).Takes ⟨.empty d, session⟩ c ⟨ctx, s'⟩ := htext
  simp only [Query.compileText, takes_bind, takes_get, takes_pure] at htakes
  obtain ⟨_, _, ⟨rfl, rfl⟩, _, κ, hreport, normal, μ, hnormal, compiled, ν, hcompiled, _, _,
    ⟨rfl, rfl⟩, _, _, -, rfl, -⟩ := htakes
  obtain rfl := takes_normalize hnormal
  exact ⟨μ, compiled, ν, takes_bind.2 ⟨_, _, hreport, hnormal⟩, hcompiled, rfl⟩

/-- A query that is compiled is compiled as the block of its normal form. -/
theorem exists_root (h : (compileQuery d scope q session).1 = .ok c) :
    ∃ block μ, (q.enter d).Takes ⟨.empty d, session⟩ q.normalize μ ∧
      q.normalize.block? = some block ∧
      ∃ run : SelectRun (compileWithin (q.normalize.subqueries + scope.nesting)) scope block μ,
        c = ⟨run.compiled.select.render d 0, run.stop.context.params⟩ := by
  obtain ⟨μ, compiled, ν, hμ, hcompiled, hc⟩ := compileQuery_takes h
  obtain ⟨block, hblock, hcompiled⟩ := Query.takes_compile.1 hcompiled
  obtain ⟨run, rfl, rfl⟩ := exists_selectRun hcompiled
  exact ⟨block, μ, hμ, hblock, run, hc⟩

/-- Every visit of a compilation that succeeds starts in a context that the empty one has evolved to,
and ends in one that evolves to the last. -/
theorem compileQuery_visits {v : Visit} (h : (compileQuery d scope q session).1 = .ok c)
    (hv : q.Visits d scope session v) :
    ∃ ξ ν, v.Ends ξ ∧ (Context.empty d).Evolves v.start.context ∧ ξ.context.Evolves ν ∧
      c.params = ν.params := by
  obtain ⟨block, μ, hμ, hblock, hreaches⟩ := hv
  obtain ⟨μ', compiled, ν, hμ', hcompiled, rfl⟩ := compileQuery_takes h
  obtain ⟨-, rfl⟩ := hμ.unique hμ'
  rw [Query.compileIn, Query.compile, hblock] at hcompiled
  obtain ⟨ξ, hends, hstart, hξ⟩ := hreaches.ends ⟨compiled, hcompiled⟩
  refine ⟨ξ, ν.context, hends, Context.Evolves.trans ?_ hstart, hξ, rfl⟩
  exact ((Evolves.report _).bind fun _ => .normalize q).takes hμ

/-- Reporting changes the record and nothing else. -/
theorem exists_report (event : Event) (μ : Moment) : ∃ ν, (CompileM.report event).Takes μ () ν ∧
    ν.context = μ.context ∧ ν.session.supply = μ.session.supply :=
  ⟨⟨μ.context, { μ.session with trace := μ.session.trace.push event }⟩, rfl, rfl, rfl⟩

theorem exists_enter (d : Dialect) (q : Query) (μ : Moment) :
    ∃ ν, (q.enter d).Takes μ q.normalize ν ∧ ν.context = μ.context ∧
      ν.session.supply = μ.session.supply := by
  obtain ⟨κ, hreport, hctx, hsupply⟩ := exists_report (.enteredQuery d) μ
  obtain ⟨trace, hnormal⟩ := outcome_normalize q κ.context κ.session
  exact ⟨⟨κ.context, { κ.session with trace := trace }⟩, takes_bind.2 ⟨(), κ, hreport, hnormal⟩, hctx,
    hsupply⟩

/-- From the empty context the query is compiled to the statement, and the last context is left. -/
def Query.CompilesTo (d : Dialect) (scope : Scope) (session : Session) (q : Query)
    (compiled : Compiled) (last : Context) : Prop :=
  ∃ session', outcome (q.enter d >>= Query.compileIn scope) (.empty d) session =
    (.ok (compiled, last), session')

theorem Query.CompilesTo.of_fst {compiled : Compiled} {last : Context}
    (h : (outcome (q.enter d >>= Query.compileIn scope) (.empty d) session).1 =
      .ok (compiled, last)) : q.CompilesTo d scope session compiled last :=
  ⟨_, Prod.ext h rfl⟩

theorem Query.compilesTo_iff {compiled : Compiled} {last : Context} :
    q.CompilesTo d scope session compiled last ↔ ∃ μ ν,
      (q.enter d).Takes ⟨.empty d, session⟩ q.normalize μ ∧
        (q.normalize.compileIn scope).Takes μ compiled ν ∧ ν.context = last := by
  constructor
  · rintro ⟨session', h⟩
    obtain ⟨normal, μ, hμ, hcompiled⟩ :=
      takes_bind.1 (show Takes _ ⟨.empty d, session⟩ compiled ⟨last, session'⟩ from h)
    obtain ⟨_, κ, -, hnormal⟩ := takes_bind.1 hμ
    obtain rfl := takes_normalize hnormal
    exact ⟨μ, ⟨last, session'⟩, hμ, hcompiled, rfl⟩
  · rintro ⟨μ, ν, hμ, hcompiled, rfl⟩
    exact ⟨ν.session, takes_bind.2 ⟨_, μ, hμ, hcompiled⟩⟩

theorem compileQuery_iff_compilesTo {c : CompiledQuery} :
    (compileQuery d scope q session).1 = .ok c ↔ ∃ compiled last,
      q.CompilesTo d scope session compiled last ∧
        c = ⟨compiled.select.render d 0, last.params⟩ := by
  constructor
  · intro h
    obtain ⟨μ, compiled, ν, hμ, hcompiled, rfl⟩ := compileQuery_takes h
    exact ⟨compiled, ν.context, Query.compilesTo_iff.2 ⟨μ, ν, hμ, hcompiled, rfl⟩, rfl⟩
  · rintro ⟨compiled, last, hrun, rfl⟩
    obtain ⟨μ, ν, hμ, hcompiled, rfl⟩ := Query.compilesTo_iff.1 hrun
    obtain ⟨u, κ, hreport, hnormal⟩ := takes_bind.1 hμ
    obtain ⟨ξ, hend⟩ := exists_report (.compiledQuery q.normalize.shape ν.context.params.length) ν
    have htext : (q.compileText scope).Takes ⟨.empty d, session⟩
        ⟨compiled.select.render d 0, ν.context.params⟩ ξ := by
      refine takes_bind.2 ⟨_, _, takes_get.2 ⟨rfl, rfl⟩, takes_bind.2 ⟨u, κ, hreport, ?_⟩⟩
      refine takes_bind.2 ⟨_, μ, hnormal, takes_bind.2 ⟨compiled, ν, hcompiled, ?_⟩⟩
      exact takes_bind.2 ⟨_, ν, takes_get.2 ⟨rfl, rfl⟩,
        takes_bind.2 ⟨(), ξ, hend.1, takes_pure.2 ⟨rfl, rfl⟩⟩⟩
    exact start_eq_ok.2 ⟨_, _, htext⟩

theorem Query.CompilesTo.unique {compiled compiled' : Compiled} {last last' : Context}
    (h : q.CompilesTo d scope session compiled last)
    (h' : q.CompilesTo d scope session compiled' last') : compiled = compiled' ∧ last = last' := by
  obtain ⟨_, h⟩ := h
  obtain ⟨_, h'⟩ := h'
  obtain ⟨hcompiled, hlast⟩ := Prod.mk.inj (Except.ok.inj (congrArg Prod.fst (h.symm.trans h')))
  exact ⟨hcompiled, hlast⟩

end

end QueryCompiler
