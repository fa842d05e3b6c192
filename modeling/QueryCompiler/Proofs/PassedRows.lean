import QueryCompiler.Proofs.Building
import QueryCompiler.Proofs.ClauseRule
import QueryCompiler.Proofs.Isolation.Scripts

/-! # `QueryCompiler.Proofs.PassedRows` — the rows that a compilation passes

Each clause is evaluated over a row that the clauses before it leave, and if one of them fails there
is no statement from which these rows could be told.  So they are listed by what is carried out.

    base        the rows of the derived table, if it has one
    joins       the row so far and that of the joined table, for each of them, and the last pair
    grouping    the row of the groups
    stages      the row that each stage of the projection is given, and the last one

Rows inside of subqueries are not among them.

A property of rows is kept by a clause if it passes on from the rows that the clause is given to the
row that it leaves.  It holds of every row of a compilation if it holds of the tables' rows and all
clauses keep it.
-/

namespace QueryCompiler

open CompileM

/-! ## Rows -/

/-- What comes of the result of a step, if it succeeds. -/
def CompileM.follow {α β : Type} (m : CompileM α) (μ : Moment) (rest : α → Moment → List β) :
    List β :=
  (m.run? μ).toList.flatMap fun r => rest r.1 r.2

theorem CompileM.mem_follow {α β : Type} {m : CompileM α} {μ : Moment} {rest : α → Moment → List β}
    {b : β} : b ∈ m.follow μ rest ↔ ∃ a ν, m.Takes μ a ν ∧ b ∈ rest a ν := by
  simp [follow, Script.run?_eq_some]

/-- The rows that the stages of a projection are given, and the one that they leave. -/
def RowTerm.stageRows (scope : Scope) : List RowTerm → Row → Supply → List Row
  | [], row, _ => [row]
  | stage :: stages, row, s =>
    let next := stage.eval (.clause row :: scope) s
    row :: stageRows scope stages next.1 next.2

section

variable (sub : SubqueryCompiler) (scope : Scope)

/-- The rows that joins are given, and the one that they leave. -/
def joinRows : List JoinTerm → Row → Moment → List Row
  | [], row, _ => [row]
  | join :: joins, row, μ =>
    row :: (compileTable join.table).follow μ (fun opened _ => [opened.2]) ++
      (compileJoin sub scope join row).follow μ fun joined μ => joinRows joins joined.2 μ

/-- The rows that the clauses of a block are given, and the one that they leave. -/
def clauseRows (clauses : Clauses) (stages : List RowTerm) (row : Row) (μ : Moment) : List Row :=
  joinRows sub scope (clauses.joins.getD []) row μ ++
  (compileJoinClause sub scope clauses.joins row).follow μ fun joined μ =>
  (compileCondition sub scope clauses.filter joined.2).follow μ fun _ μ =>
  (compileGrouping sub scope clauses.grouping joined.2).follow μ fun grouped μ =>
  grouped.2.2 :: (compileOrder sub scope (clauses.order.getD []) grouped.2.2).follow μ fun _ μ =>
  RowTerm.stageRows scope stages grouped.2.2 μ.session.supply

mutual

/-- The rows that are passed when a block is compiled. -/
def Block.rows : Block → Moment → List Row
  | .mk body clauses base stages _, μ =>
    (CompileM.report (.select ("Select(" ++ body.shape ++ ")") μ.context.indent)).follow μ fun _ μ =>
    base.rows μ ++ (base.compile sub scope).follow μ fun opened μ =>
    clauseRows sub scope clauses stages opened.2 μ

def Base.rows : Base → Moment → List Row
  | .table _, _ => []
  | .derived block, μ => block.rows (μ.deeper 1)
  | .strayHaving _, _ => []

end

def Query.rows (q : Query) (μ : Moment) : List Row :=
  q.block?.toList.flatMap fun block => block.rows sub scope μ

end

/-- The rows that are passed when a query is brought into normal form and compiled. -/
def Query.textRows (scope : Scope) (q : Query) (μ : Moment) : List Row :=
  (q.enter μ.context.dialect).follow μ fun normal μ =>
    normal.rows (compileWithin (normal.subqueries + scope.nesting)) scope μ

def ScalarQuery.textRows (scope : Scope) (q : ScalarQuery) (μ : Moment) : List Row :=
  (CompileM.report (.enteredScalar μ.context.dialect q.func)).follow μ fun _ μ =>
    q.toQuery.textRows scope μ

/-! ## The last row -/

section

variable {sub : SubqueryCompiler} {scope : Scope} {μ ν : Moment} {row : Row}

theorem RowTerm.runStages_mem_stageRows : ∀ (stages : List RowTerm) (row : Row) (s : Supply),
    (RowTerm.runStages scope stages row s).1 ∈ RowTerm.stageRows scope stages row s
  | [], _, _ => List.mem_singleton_self _
  | _ :: stages, _, _ => List.mem_cons_of_mem _ (runStages_mem_stageRows stages _ _)

theorem compileJoins_mem_joinRows : ∀ {joins : List JoinTerm} {row : Row} {μ ν : Moment}
    {r : List Sql.Join × Row}, (compileJoins sub scope joins row).Takes μ r ν →
      r.2 ∈ joinRows sub scope joins row μ
  | [], _, _, _, _, h => by
      obtain ⟨rfl, -⟩ := takes_pure.1 h
      exact List.mem_singleton_self _
  | _ :: _, _, _, _, _, h => by
      obtain ⟨joined, κ, hjoin, h⟩ := takes_bind.1 h
      obtain ⟨last, ξ, hjoins, h⟩ := takes_bind.1 h
      obtain ⟨rfl, -⟩ := takes_pure.1 h
      have hlast := compileJoins_mem_joinRows hjoins
      exact List.mem_append_right _ (mem_follow.2 ⟨joined, κ, hjoin, hlast⟩)

theorem compileJoinClause_mem_joinRows {joins : Option (List JoinTerm)} {r : List Sql.Join × Row}
    (h : (compileJoinClause sub scope joins row).Takes μ r ν) :
    r.2 ∈ joinRows sub scope (joins.getD []) row μ := by
  cases joins with
  | none =>
      obtain ⟨rfl, -⟩ := takes_pure.1 h
      exact List.mem_singleton_self _
  | some joins =>
      cases joins with
      | nil => exact (takes_throw.1 h).elim
      | cons => exact compileJoins_mem_joinRows h

/-- The row that a statement leaves is one of those that are passed. -/
theorem Block.compile_mem_rows {block : Block} {compiled : Compiled}
    (h : (block.compile sub scope).Takes μ compiled ν) : compiled.row ∈ block.rows sub scope μ := by
  obtain ⟨body, clauses, base, stages, aliases⟩ := block
  simp only [Block.compile, compileClauses, takes_bind, takes_get, takes_pure] at h
  obtain ⟨_, _, ⟨rfl, rfl⟩, _, κ, hreport, opened, κ₁, hbase, joined, κ₂, hjoins, _, κ₃, hfilter,
    grouped, κ₄, hgrouping, _, κ₅, horder, last, _, hstages, _, _, -, rfl, -⟩ := h
  rw [Block.rows]
  refine mem_follow.2 ⟨(), κ, hreport, List.mem_append_right _ ?_⟩
  refine mem_follow.2 ⟨opened, κ₁, hbase, List.mem_append_right _ ?_⟩
  refine mem_follow.2 ⟨joined, κ₂, hjoins, mem_follow.2 ⟨_, κ₃, hfilter, ?_⟩⟩
  refine mem_follow.2 ⟨grouped, κ₄, hgrouping, List.mem_cons_of_mem _ ?_⟩
  refine mem_follow.2 ⟨_, κ₅, horder, ?_⟩
  obtain ⟨rfl, -⟩ := takes_build.1 hstages
  exact RowTerm.runStages_mem_stageRows stages _ _

end

/-! ## Properties that clauses keep -/

/-- The rows of the tables have the property, and the clauses keep it. -/
def ClauseRule.keeping (P : Row → Prop) (scope : Scope) : ClauseRule where
  table t := Build.Returns (fun columns => P (.table t columns)) t.instantiate
  stage stage := ∀ row, P row → Build.Returns P (stage.eval (.clause row :: scope))
  aliases _ := True
  filter _ := True
  sortKey _ := True
  grouping keys _ := ∀ row, P row →
    Build.Returns (fun es : List Expr => P (.group (.tuple (es.map .expr)) row))
      (ExprTerm.evalAllOn keys scope row)
  having _ := True
  join join := Build.Returns (fun columns => P (.table join.table columns)) join.table.instantiate ∧
    ∀ outer inner, P outer → P inner → Build.Returns P (join.result.evalJoined scope outer inner)
  filter_and _ _ := trivial
  grouping_having h _ := h

section

variable {P : Row → Prop} {sub : SubqueryCompiler} {scope : Scope} {μ ν : Moment} {row r : Row}

theorem compileTable_keeps {t : Table} {opened : Sql.Source × Row}
    (ht : Build.Returns (fun columns => P (.table t columns)) t.instantiate)
    (h : (compileTable t).Takes μ opened ν) : P opened.2 := by
  obtain ⟨columns, κ, hcolumns, h⟩ := takes_bind.1 h
  obtain ⟨label, κ₁, -, h⟩ := takes_bind.1 h
  obtain ⟨_, κ₂, -, h⟩ := takes_bind.1 h
  obtain ⟨rfl, -⟩ := takes_pure.1 h
  obtain ⟨rfl, -⟩ := takes_build.1 hcolumns
  exact ht _

theorem compileJoin_keeps {join : JoinTerm} {joined : Sql.Join × Row}
    (hjoin : (ClauseRule.keeping P scope).join join) (hrow : P row)
    (h : (compileJoin sub scope join row).Takes μ joined ν) : P joined.2 := by
  simp only [compileJoin, takes_bind, takes_pure] at h
  obtain ⟨columns, _, hcolumns, _, _, -, _, _, -, _, _, -, _, _, -, _, _, -, _, _, -, paired, _,
    hpaired, rfl, -⟩ := h
  obtain ⟨rfl, -⟩ := takes_build.1 hcolumns
  obtain ⟨rfl, -⟩ := takes_build.1 hpaired
  exact hjoin.2 row _ hrow (hjoin.1 _) _

theorem compileGrouping_keeps {grouping : Option Grouping}
    {grouped : List Sql.Scalar × Option Sql.Scalar × Row}
    (hgrouping : ∀ g ∈ grouping, (ClauseRule.keeping P scope).grouping g.keys g.having) (hrow : P row)
    (h : (compileGrouping sub scope grouping row).Takes μ grouped ν) : P grouped.2.2 := by
  cases grouping with
  | none =>
      obtain ⟨rfl, -⟩ := takes_pure.1 h
      exact hrow
  | some grouping =>
      obtain ⟨keys, κ, hkeys, h⟩ := takes_bind.1 h
      split at h
      · obtain ⟨_, _, h, -⟩ := takes_bind.1 h
        exact (takes_throw.1 h).elim
      · simp only [takes_bind, takes_pure] at h
        obtain ⟨_, _, -, _, _, -, rfl, -⟩ := h
        obtain ⟨rfl, -⟩ := takes_build.1 hkeys
        exact hgrouping grouping rfl row hrow _

theorem RowTerm.stageRows_keep : ∀ {stages : List RowTerm} {row : Row} {s : Supply},
    (∀ stage ∈ stages, (ClauseRule.keeping P scope).stage stage) → P row →
      ∀ r ∈ RowTerm.stageRows scope stages row s, P r
  | [], _, _, _, hrow => List.forall_mem_singleton.2 hrow
  | _ :: _, row, _, hstages, hrow => by
      obtain ⟨hstage, hstages⟩ := List.forall_mem_cons.1 hstages
      exact List.forall_mem_cons.2 ⟨hrow, stageRows_keep hstages (hstage row hrow _)⟩

theorem joinRows_keep : ∀ {joins : List JoinTerm} {row : Row} {μ : Moment},
    (∀ join ∈ joins, (ClauseRule.keeping P scope).join join) → P row →
      ∀ r ∈ joinRows sub scope joins row μ, P r
  | [], _, _, _, hrow => List.forall_mem_singleton.2 hrow
  | join :: joins, row, μ, hjoins, hrow => by
      obtain ⟨hjoin, hjoins⟩ := List.forall_mem_cons.1 hjoins
      refine List.forall_mem_append.2 ⟨List.forall_mem_cons.2 ⟨hrow, ?_⟩, ?_⟩
      · intro r hr
        obtain ⟨opened, κ, hopened, hr⟩ := mem_follow.1 hr
        obtain rfl := List.mem_singleton.1 hr
        exact compileTable_keeps hjoin.1 hopened
      · intro r hr
        obtain ⟨joined, κ, hjoined, hr⟩ := mem_follow.1 hr
        exact joinRows_keep hjoins (compileJoin_keeps hjoin hrow hjoined) r hr

theorem clauseRows_keep {clauses : Clauses} {stages : List RowTerm}
    (hclauses : clauses.Obeys (.keeping P scope))
    (hstages : ∀ stage ∈ stages, (ClauseRule.keeping P scope).stage stage) (hrow : P row) :
    ∀ r ∈ clauseRows sub scope clauses stages row μ, P r := by
  have hjoins : ∀ r ∈ joinRows sub scope (clauses.joins.getD []) row μ, P r := by
    refine joinRows_keep (fun join hjoin => ?_) hrow
    cases hc : clauses.joins with
    | none =>
        rw [hc] at hjoin
        exact absurd hjoin List.not_mem_nil
    | some joins =>
        rw [hc] at hjoin
        exact hclauses.joins joins hc join hjoin
  refine List.forall_mem_append.2 ⟨hjoins, fun r hr => ?_⟩
  obtain ⟨joined, κ, hjoined, hr⟩ := mem_follow.1 hr
  obtain ⟨_, κ₁, -, hr⟩ := mem_follow.1 hr
  obtain ⟨grouped, κ₂, hgrouped, hr⟩ := mem_follow.1 hr
  have hlast := hjoins _ (compileJoinClause_mem_joinRows hjoined)
  have hgroup := compileGrouping_keeps hclauses.grouping hlast hgrouped
  rcases List.mem_cons.1 hr with rfl | hr
  · exact hgroup
  · obtain ⟨_, κ₃, -, hr⟩ := mem_follow.1 hr
    exact RowTerm.stageRows_keep hstages hgroup r hr

mutual

theorem Block.rows_keep : ∀ {block : Block} {μ : Moment}, block.Obeys (.keeping P scope) →
    ∀ r ∈ block.rows sub scope μ, P r
  | _, _, .mk hclauses hbase hstages _ => by
      intro r hr
      rw [Block.rows] at hr
      obtain ⟨_, κ, -, hr⟩ := mem_follow.1 hr
      rcases List.mem_append.1 hr with hr | hr
      · exact Base.rows_keep hbase r hr
      · obtain ⟨opened, κ₁, hopened, hr⟩ := mem_follow.1 hr
        exact clauseRows_keep hclauses hstages (Base.compile_keeps hbase hopened) r hr

theorem Base.rows_keep : ∀ {base : Base} {μ : Moment}, base.Obeys (.keeping P scope) →
    ∀ r ∈ base.rows sub scope μ, P r
  | _, _, .table _ | _, _, .strayHaving => List.forall_mem_nil _
  | _, _, .derived hblock => Block.rows_keep hblock

/-- The row of a derived table is the last of those that are passed inside of it. -/
theorem Base.compile_keeps : ∀ {base : Base} {μ ν : Moment} {opened : Sql.Source × Row},
    base.Obeys (.keeping P scope) → (base.compile sub scope).Takes μ opened ν → P opened.2
  | _, _, _, _, .table ht, h => compileTable_keeps ht h
  | _, _, _, _, .derived hblock, h => by
      obtain ⟨inner, κ, hinner, h⟩ := takes_bind.1 h
      obtain ⟨ξ, hinner, -⟩ := hinner.indented
      obtain ⟨label, κ₁, -, h⟩ := takes_bind.1 h
      obtain ⟨_, κ₂, -, h⟩ := takes_bind.1 h
      obtain ⟨rfl, -⟩ := takes_pure.1 h
      exact Block.rows_keep hblock _ (Block.compile_mem_rows hinner)
  | _, _, _, _, .strayHaving, h => (takes_throw.1 h).elim

end

/-- A property that the tables of a query have and its clauses keep holds of every row passed. -/
theorem Query.textRows_keep {q : Query} (hq : q.Obeys (.keeping P scope)) :
    ∀ r ∈ q.textRows scope μ, P r := by
  intro r hr
  obtain ⟨normal, κ, henter, hr⟩ := mem_follow.1 hr
  obtain ⟨_, _, -, hnormal⟩ := takes_bind.1 henter
  obtain rfl := takes_normalize hnormal
  obtain ⟨block, hblock, hr⟩ := List.mem_flatMap.1 hr
  exact Block.rows_keep (hq.normalize.block? (Option.mem_toList.1 hblock)) r hr

theorem ScalarQuery.textRows_keep {q : ScalarQuery} (hq : q.toQuery.Obeys (.keeping P scope)) :
    ∀ r ∈ q.textRows scope μ, P r := by
  intro r hr
  obtain ⟨_, κ, -, hr⟩ := mem_follow.1 hr
  exact Query.textRows_keep hq r hr

end

end QueryCompiler
