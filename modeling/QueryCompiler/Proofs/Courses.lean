import Mathlib.Logic.Relation
import QueryCompiler.Proofs.Visits

/-! # `QueryCompiler.Proofs.Courses` — one step further into a compilation

`Visit.Reaches` finds what is compiled inside something else, from some moment on whose context is
known.  Where it also matters what has been built by then, each step has to start from the very
moment at which it takes place.  `Visit.Opens` is one such step; a compilation passes through all that
can be reached by them.

    a block          its derived table, if it has one, and the expressions of each clause
    expressions      the operands that they write, and the blocks of their subqueries

Statements that change rows have no block.  They are made of expressions only: those that columns are
set to, and the condition.
-/

namespace QueryCompiler

open CompileM

/-! ## Steps -/

inductive Visit.Opens : Visit → Visit → Prop
  /-- The derived table of a block. -/
  | derived {depth scope block inner μ} (run : StatementRun (compileWithin depth) scope block μ) :
      block.base = .derived inner →
      Opens ⟨depth, .block scope block, μ⟩ ⟨depth, .block scope inner, run.entered.deeper 1⟩
  /-- The expressions of a clause. -/
  | clause {depth scope block es μ κ} (run : StatementRun (compileWithin depth) scope block μ) :
      (es, κ) ∈ run.expressions → Opens ⟨depth, .block scope block, μ⟩ ⟨depth, .exprs es, κ⟩
  /-- The operands that one of the expressions writes. -/
  | operands {depth es e es' us os ts t μ κ ξ} : WritesAll (compileWithin depth) es μ us κ →
      κ.referenceOf e.id = none → e.Assembles os ts t → WritesAll (compileWithin depth) os κ ts ξ →
      Opens ⟨depth, .exprs (es ++ e :: es'), μ⟩ ⟨depth, .exprs os, κ⟩
  /-- The needle that is looked for in a subquery. -/
  | needle {depth es id needle query scope es' us μ κ} : WritesAll (compileWithin depth) es μ us κ →
      κ.referenceOf id = none →
      Opens ⟨depth, .exprs (es ++ .inQuery id needle query scope :: es'), μ⟩
        ⟨depth, .exprs [needle], κ⟩
  /-- The subquery itself. -/
  | subquery {depth es id needle query scope es' us t normal block μ κ ξ ζ} :
      WritesAll (compileWithin (depth + 1)) es μ us κ → κ.referenceOf id = none →
      Writes (compileWithin (depth + 1)) needle κ t ξ →
      (CompileM.normalize query).Takes ξ normal ζ → normal.block? = some block →
      Opens ⟨depth + 1, .exprs (es ++ .inQuery id needle query scope :: es'), μ⟩
        ⟨depth, .block scope block, ζ.deeper 2⟩

/-- In the course of the first visit the second takes place. -/
def Visit.PassesThrough : Visit → Visit → Prop := Relation.ReflTransGen Visit.Opens

theorem Visit.Opens.reaches {u v w : Visit} (h : v.Opens w) (hv : u.Reaches v) : u.Reaches w := by
  cases h with
  | derived run hbase => exact .derived run.toSelectRun hv hbase
  | clause run hmem => exact .clause run.toSelectRun hv hmem
  | operands hes hid ha hos => exact .operands hv hes hid ha hos
  | needle hes hid => exact .needle hv hes hid
  | subquery hes hid hneedle hnormal hblock => exact .subquery hv hes hid hneedle hnormal hblock

theorem Visit.PassesThrough.reaches {v w : Visit} (h : v.PassesThrough w) : v.Reaches w := by
  induction h with
  | refl => exact .refl
  | tail _ hopens ih => exact hopens.reaches ih

/-! ## Queries -/

/-- The visit with which the compilation of a query starts. -/
structure Query.Starts (d : Dialect) (scope : Scope) (session : Session) (q : Query) (v : Visit) :
    Prop where
  depth_eq : v.depth = q.normalize.subqueries + scope.nesting
  takes : (q.enter d).Takes ⟨.empty d, session⟩ q.normalize v.start
  task_eq : ∃ block, q.normalize.block? = some block ∧ v.task = .block scope block

section

variable {d : Dialect} {scope : Scope} {session : Session}

/-- A query that is compiled starts somewhere, and ends in the last context. -/
theorem Query.CompilesTo.exists_starts {q : Query} {compiled : Compiled} {last : Context}
    (h : q.CompilesTo d scope session compiled last) :
    ∃ v ν, q.Starts d scope session v ∧ v.Ends ν ∧ ν.context = last := by
  obtain ⟨μ, ν, hμ, hcompiled, hlast⟩ := Query.compilesTo_iff.1 h
  obtain ⟨block, hblock, hcompiled⟩ := Query.takes_compile.1 hcompiled
  exact ⟨⟨_, .block scope block, μ⟩, ν, ⟨rfl, hμ, block, hblock, rfl⟩, ⟨compiled, hcompiled⟩, hlast⟩

end

/-! ## Statements that change rows -/

/-- The expression that a column is set to. -/
def Assigned.nodesOn (scope : Scope) (value : Assigned) (row : Row) : Build (List Expr) := do
  return [← value.build scope row]

/-- Assignments, with the expressions that they write and the moments from which they do. -/
inductive AssignmentsRun (sub : SubqueryCompiler) (scope : Scope) (row : Row) :
    List (String × Assigned) → Moment → List (List Expr × Moment) → Moment → Prop
  | nil {μ} : AssignmentsRun sub scope row [] μ [] μ
  | cons {column value rest μ written ν} (b : Batch sub (value.nodesOn scope row) μ) :
      AssignmentsRun sub scope row rest b.stop written ν →
      AssignmentsRun sub scope row ((column, value) :: rest) μ ((b.nodes, b.start) :: written) ν

/-- A statement that changes rows, with the expressions that it writes and the moments from which it
does. -/
inductive Statement.Runs (sub : SubqueryCompiler) (scope : Scope) :
    Statement → Moment → List (List Expr × Moment) → Moment → Prop
  | delete {t filters row μ κ}
      (filter : Batch sub (ExprTerm.nodesOn scope (conjunction filters) row) κ) :
      (compileTarget t).Takes μ row κ →
      Runs sub scope (.delete ⟨t, filters⟩) μ [(filter.nodes, filter.start)] filter.stop
  | update {t assignments filters row μ κ written ξ}
      (filter : Batch sub (ExprTerm.nodesOn scope (conjunction filters) row) ξ) :
      (compileTarget t).Takes μ row κ → AssignmentsRun sub scope row assignments κ written ξ →
      Runs sub scope (.update ⟨t, assignments, filters⟩) μ
        (written ++ [(filter.nodes, filter.start)]) filter.stop
  | insert {t values μ written ν} :
      AssignmentsRun sub scope .absent (values.map fun p => (p.1, .fixed p.2)) μ written ν →
      Runs sub scope (.insert ⟨t, values⟩) μ written ν

section

variable {sub : SubqueryCompiler} {scope : Scope} {μ ν : Moment}

theorem takes_requireColumn {t : Table} {column : String} {u : Unit}
    (h : (requireColumn t column).Takes μ u ν) : μ = ν := by
  unfold requireColumn at h
  split at h
  · exact (takes_pure.1 h).2
  · exact (takes_throw.1 h).elim

/-- What a column is set to is built and written. -/
theorem exists_batch_of_assigned {value : Assigned} {row : Row} {e : Expr} {t : Sql.Scalar}
    {κ : Moment} (he : (CompileM.build (value.build scope row)).Takes μ e κ)
    (ht : (e.compile sub).Takes κ t ν) :
    ∃ b : Batch sub (value.nodesOn scope row) μ, b.texts = [t] ∧ b.stop = ν := by
  refine ⟨⟨[e], [t], κ, ν, ?_, .one (e.writes ht)⟩, rfl, rfl⟩
  obtain ⟨rfl, hctx, hs⟩ := takes_build.1 he
  exact takes_build.2 ⟨rfl, hctx, hs⟩

theorem exists_assignmentsRun {t : Table} {row : Row} : ∀ {assignments : List (String × Assigned)}
    {μ ν : Moment} {r : List (String × Sql.Scalar)},
    (compileAssignments sub scope t row assignments).Takes μ r ν →
      ∃ written, AssignmentsRun sub scope row assignments μ written ν
  | [], _, _, _, h => by
      obtain ⟨-, rfl⟩ := takes_pure.1 h
      exact ⟨[], .nil⟩
  | (column, value) :: rest, μ, _, _, h => by
      simp only [compileAssignments, takes_bind, takes_pure] at h
      obtain ⟨_, _, hcolumn, e, κ, he, sql, ξ, hsql, sqls, _, hrest, -, rfl⟩ := h
      obtain rfl := takes_requireColumn hcolumn
      obtain ⟨b, -, rfl⟩ := exists_batch_of_assigned he hsql
      obtain ⟨written, hwritten⟩ := exists_assignmentsRun hrest
      exact ⟨_, .cons b hwritten⟩

/-- Every statement that is compiled is compiled expression by expression. -/
theorem Statement.exists_runs {st : Statement} {change : Sql.Change}
    (h : (st.compile sub scope).Takes μ change ν) : ∃ written, st.Runs sub scope μ written ν := by
  cases st with
  | delete s =>
      simp only [Statement.compile, Delete.compile, takes_bind, takes_pure] at h
      obtain ⟨row, κ, hrow, _, _, hfilter, -, rfl⟩ := h
      obtain ⟨filter, -, rfl⟩ := exists_batch_of_condition hfilter
      exact ⟨_, .delete filter hrow⟩
  | update s =>
      simp only [Statement.compile, Update.compile] at h
      split at h
      · exact (takes_throw.1 h).elim
      · simp only [takes_bind, takes_pure] at h
        obtain ⟨row, κ, hrow, _, ξ, hassignments, _, _, hfilter, -, rfl⟩ := h
        obtain ⟨written, hwritten⟩ := exists_assignmentsRun hassignments
        obtain ⟨filter, -, rfl⟩ := exists_batch_of_condition hfilter
        exact ⟨_, .update filter hrow hwritten⟩
  | insert s =>
      simp only [Statement.compile, Insert.compile] at h
      split at h
      · exact (takes_throw.1 h).elim
      · simp only [takes_bind, takes_pure] at h
        obtain ⟨_, _, hvalues, -, rfl⟩ := h
        obtain ⟨written, hwritten⟩ := exists_assignmentsRun hvalues
        exact ⟨written, .insert hwritten⟩

theorem AssignmentsRun.evolves (hsub : sub.Evolves) {row : Row}
    {assignments : List (String × Assigned)} {written : List (List Expr × Moment)}
    (h : AssignmentsRun sub scope row assignments μ written ν) : μ.context.Evolves ν.context := by
  induction h with
  | nil => exact .refl
  | cons b _ ih => exact (b.evolves hsub).trans ih

theorem AssignmentsRun.between (hsub : sub.Evolves) {row : Row}
    {assignments : List (String × Assigned)} {written : List (List Expr × Moment)}
    (h : AssignmentsRun sub scope row assignments μ written ν) :
    ∀ p ∈ written, WrittenBetween sub μ ν p.1 p.2 := by
  induction h with
  | nil => exact List.forall_mem_nil _
  | cons b hrest ih =>
      rw [List.forall_mem_cons]
      exact ⟨b.between.widen .refl (hrest.evolves hsub),
        fun p hp => (ih p hp).widen (b.evolves hsub) .refl⟩

theorem Statement.Runs.between (hsub : sub.Evolves) {st : Statement}
    {written : List (List Expr × Moment)} (h : st.Runs sub scope μ written ν) :
    ∀ p ∈ written, WrittenBetween sub μ ν p.1 p.2 := by
  cases h with
  | delete filter hrow =>
      rw [List.forall_mem_singleton]
      exact filter.between.widen ((compileTarget_evolves _).takes hrow) .refl
  | update filter hrow hassignments =>
      have hrow := (compileTarget_evolves _).takes hrow
      rw [List.forall_mem_append, List.forall_mem_singleton]
      exact ⟨fun p hp => (hassignments.between hsub p hp).widen hrow (filter.evolves hsub),
        filter.between.widen (hrow.trans (hassignments.evolves hsub)) .refl⟩
  | insert hvalues => exact hvalues.between hsub

/-- A statement that is compiled runs from where its start has been reported. -/
theorem compileStatement_runs {d : Dialect} {session : Session} {st : Statement} {c : CompiledQuery}
    (h : (compileStatement d scope st session).1 = .ok c) :
    ∃ μ written ν, (CompileM.report (.enteredStatement d st.kind)).Takes ⟨.empty d, session⟩ () μ ∧
      st.Runs (compileWithin (st.nesting scope)) scope μ written ν ∧
      c.params = ν.context.params := by
  obtain ⟨ctx, s', htext⟩ := start_eq_ok.1 h
  have htakes : (st.compileText scope).Takes ⟨.empty d, session⟩ c ⟨ctx, s'⟩ := htext
  simp only [Statement.compileText, takes_bind, takes_get, takes_pure] at htakes
  obtain ⟨_, _, ⟨rfl, rfl⟩, _, μ, hreport, change, ν, hchange, _, _, ⟨rfl, rfl⟩, _, _, -, rfl, -⟩ :=
    htakes
  obtain ⟨written, hwritten⟩ := Statement.exists_runs hchange
  exact ⟨μ, written, ν, hreport, hwritten, rfl⟩

end

end QueryCompiler
