import QueryCompiler.Proofs.Failures
import QueryCompiler.Proofs.Layout.Spine
import QueryCompiler.Proofs.Nesting

/-! # `QueryCompiler.Proofs.Layout.StrayHaving` — a condition on groups is applied or refused

A condition on groups that no grouping has taken in is laid out as a base that nothing can be read
from.  What a statement reads from is compiled before any of its clauses, so the compilation of a
query with such a condition goes straight down to the outermost one and ends there.  On the way it
evaluates nothing, and all that it reports are the shapes it comes by:

    a pass          the shape of the query that it leaves
    a statement     its shape, then whatever is reported of what it reads from
    the condition   nothing; the error shows its shape

So the outcome is the same for any two queries that differ in their clause functions only; `bare`
takes these away.  In the other direction, the errors that clauses end with are of other kinds.
-/

namespace QueryCompiler

open CompileM

/-! ## Queries without their clause functions -/

/-- The join with nothing left but its table. -/
def JoinTerm.bare (join : JoinTerm) : JoinTerm :=
  .mk join.kind join.table .null .null .absent none

namespace Query

/-- The query with the same clauses over the same tables, none of which computes anything. -/
def bare : Query → Query
  | .table t => .table t
  | .derived inner => .derived inner.bare
  | .select source _ _ => .select source.bare [] none
  | .filter source _ => .filter source.bare .null
  | .orderBy source _ => .orderBy source.bare []
  | .groupBy source _ none => .groupBy source.bare [] none
  | .groupBy source _ (some _) => .groupBy source.bare [] (some .null)
  | .having source _ => .having source.bare .null
  | .join source joins => .join source.bare (joins.map JoinTerm.bare)

theorem bare_bare (q : Query) : q.bare.bare = q.bare := by
  have hjoins : ∀ joins : List JoinTerm,
      (joins.map JoinTerm.bare).map JoinTerm.bare = joins.map JoinTerm.bare := by
    intro joins
    rw [List.map_map]
    rfl
  fun_induction bare q <;> simp_all only [bare]

theorem head_bare (q : Query) : q.bare.head = q.head := by
  fun_cases bare q <;> rfl

theorem isStray_bare (q : Query) : q.bare.isStray = q.isStray := by
  fun_cases bare q <;> simp only [isStray, head_bare]

theorem spine_bare (q : Query) : q.bare.spine = q.spine.map bare := by
  fun_induction bare q <;> simp_all only [spine, bare, List.map_cons, List.map_nil]

theorem find?_isStray_bare (q : Query) :
    q.bare.spine.find? isStray = (q.spine.find? isStray).map bare := by
  have hstray : isStray ∘ bare = isStray := funext isStray_bare
  rw [spine_bare, List.find?_map, hstray]

theorem shape_bare (q : Query) : q.bare.shape = q.shape := by
  have hjoins : ∀ joins : List JoinTerm,
      (joins.map JoinTerm.bare).map (fun j => j.table.name) = joins.map fun j => j.table.name := by
    intro joins
    rw [List.map_map]
    rfl
  fun_induction bare q <;> simp_all only [shape]

/-! ## Passes over bare queries -/

/-- A pass over a query and one over another leave queries that differ in clause functions only. -/
def PassAlike (q q' : Query) : Prop :=
  q.fuseOnce.1.bare = q'.fuseOnce.1.bare ∧ q.fuseOnce.2 = q'.fuseOnce.2

/-- A pass does to a query what it does to the bare one. -/
theorem passAlike_bare : ∀ q : Query, PassAlike q.bare q
  | .table _ => ⟨rfl, rfl⟩
  | .derived inner => by
      obtain ⟨hquery, hchanged⟩ := passAlike_bare inner
      exact ⟨congrArg derived hquery, hchanged⟩
  | .groupBy source keys condition => by
      obtain ⟨hquery, hchanged⟩ := passAlike_bare source
      cases condition with
      | none => exact ⟨congrArg (groupBy · [] none) hquery, hchanged⟩
      | some => exact ⟨congrArg (groupBy · [] (some .null)) hquery, hchanged⟩
  | .select source stages aliases => by
      by_cases h : source.head = .select
      · obtain ⟨source, _, _, rfl⟩ := eq_select_of_head h
        exact ⟨congrArg (select · [] none) (bare_bare source), rfl⟩
      · obtain ⟨hquery, hchanged⟩ := passAlike_bare source
        rw [PassAlike, bare, fuseOnce_select (head_bare source ▸ h), fuseOnce_select h]
        exact ⟨congrArg (select · [] none) hquery, hchanged⟩
  | .filter source p => by
      by_cases h : source.head = .filter
      · obtain ⟨source, _, rfl⟩ := eq_filter_of_head h
        exact ⟨congrArg (filter · .null) (bare_bare source), rfl⟩
      · obtain ⟨hquery, hchanged⟩ := passAlike_bare source
        rw [PassAlike, bare, fuseOnce_filter (head_bare source ▸ h), fuseOnce_filter h]
        exact ⟨congrArg (filter · .null) hquery, hchanged⟩
  | .orderBy source keys => by
      by_cases h : source.head = .orderBy
      · obtain ⟨source, _, rfl⟩ := eq_orderBy_of_head h
        exact ⟨congrArg (orderBy · []) (bare_bare source), rfl⟩
      · obtain ⟨hquery, hchanged⟩ := passAlike_bare source
        rw [PassAlike, bare, fuseOnce_orderBy (head_bare source ▸ h), fuseOnce_orderBy h]
        exact ⟨congrArg (orderBy · []) hquery, hchanged⟩
  | .having source p => by
      by_cases h : source.head = .openGrouping
      · obtain ⟨source, _, rfl⟩ := eq_groupBy_of_head h
        exact ⟨congrArg (groupBy · [] (some .null)) (bare_bare source), rfl⟩
      · obtain ⟨hquery, hchanged⟩ := passAlike_bare source
        rw [PassAlike, bare, fuseOnce_having (head_bare source ▸ h), fuseOnce_having h]
        exact ⟨congrArg (having · .null) hquery, hchanged⟩
  | .join source joins => by
      by_cases h : source.head = .join
      · obtain ⟨source, first, rfl⟩ := eq_join_of_head h
        refine ⟨?_, rfl⟩
        show join source.bare.bare ((first.map _ ++ joins.map _).map _) =
          join source.bare ((first ++ joins).map _)
        rw [bare_bare, ← List.map_append, List.map_map]
        rfl
      · obtain ⟨hquery, hchanged⟩ := passAlike_bare source
        rw [PassAlike, bare, fuseOnce_join (head_bare source ▸ h), fuseOnce_join h]
        refine ⟨?_, hchanged⟩
        show join _ ((joins.map _).map _) = join _ (joins.map _)
        rw [hquery, List.map_map]
        rfl

variable {q q' : Query}

/-- A pass does the same to queries that differ in clause functions only. -/
theorem passAlike (h : q.bare = q'.bare) : PassAlike q q' := by
  have hq := passAlike_bare q
  rw [h] at hq
  have hq' := passAlike_bare q'
  exact ⟨hq.1.symm.trans hq'.1, hq.2.symm.trans hq'.2⟩

/-- What is reported of a pass, its number aside. -/
def Pass.view (pass : Pass) : Bool × String := (pass.changed, pass.result.shape)

/-- Queries that differ in clause functions only take the same passes, and come to queries of which
this is true again. -/
theorem passes_congr (h : q.bare = q'.bare) :
    q.passes.map Pass.view = q'.passes.map Pass.view ∧ q.fused.bare = q'.fused.bare := by
  induction q using passes_induction generalizing q' with
  | done q hq =>
      have hq' : q'.fuseOnce.2 = false := (passAlike h).2.symm.trans hq
      have hshape : q.shape = q'.shape := by rw [← shape_bare q, h, shape_bare]
      rw [passes_of_unchanged hq, passes_of_unchanged hq', fused_of_unchanged hq,
        fused_of_unchanged hq']
      simp [Pass.view, hshape, h]
  | pass q hq ih =>
      obtain ⟨hnext, hchanged⟩ := passAlike h
      have hq' : q'.fuseOnce.2 = true := hchanged.symm.trans hq
      have hshape : q.fuseOnce.1.shape = q'.fuseOnce.1.shape := by
        rw [← shape_bare q.fuseOnce.1, hnext, shape_bare]
      obtain ⟨hpasses, hfused⟩ := ih hnext
      rw [passes_of_changed (Prod.ext rfl hq), passes_of_changed (Prod.ext rfl hq'),
        fused_of_changed hq, fused_of_changed hq']
      simp [Pass.view, hshape, hpasses, hfused]

theorem rooted_bare (q : Query) : q.rooted.bare = q.bare.rooted := by
  fun_cases bare q <;> rfl

theorem normalize_congr (h : q.bare = q'.bare) : q.normalize.bare = q'.normalize.bare := by
  rw [normalize, normalize, rooted_bare, rooted_bare, (passes_congr h).2]

end Query

/-! ## Blocks -/

mutual

/-- The stray condition on groups that the compilation of a block comes by. -/
def Block.stray? : Block → Option Query
  | .mk _ _ base _ _ => base.stray?

def Base.stray? : Base → Option Query
  | .table _ => none
  | .derived block => block.stray?
  | .strayHaving query => some query

end

mutual

/-- What is reported on the way down from a block at the given level. -/
def Block.reports (level : Nat) : Block → List Event
  | .mk body _ base _ _ => .select ("Select(" ++ body.shape ++ ")") level :: base.reports level

def Base.reports (level : Nat) : Base → List Event
  | .table _ | .strayHaving _ => []
  | .derived block => block.reports (level + 1)

end

section

variable (sub : SubqueryCompiler) (scope : Scope)

def Session.reporting (s : Session) (events : List Event) : Session :=
  { s with trace := events.foldl Array.push s.trace }

theorem outcome_report_eq (event : Event) (ctx : Context) (s : Session) :
    outcome (report event) ctx s = (.ok ((), ctx), s.reporting [event]) := rfl

mutual

/-- A block with a stray condition below it is compiled no further than that. -/
theorem Block.outcome_of_stray : ∀ (block : Block) {h : Query}, block.stray? = some h →
    ∀ (ctx : Context) (s : Session), outcome (block.compile sub scope) ctx s =
      (.error (.unsupportedShape h.kind h.shape), s.reporting (block.reports ctx.indent))
  | .mk body clauses base stages aliases, h, hstray, ctx, s => by
      have hbase := Base.outcome_of_stray base hstray ctx
        (s.reporting [.select ("Select(" ++ body.shape ++ ")") ctx.indent])
      rw [Block.compile, outcome_bind_of_ok (outcome_get ctx s),
        outcome_bind_of_ok (outcome_report_eq _ ctx s), outcome_bind_of_error hbase]
      rfl

theorem Base.outcome_of_stray : ∀ (base : Base) {h : Query}, base.stray? = some h →
    ∀ (ctx : Context) (s : Session), outcome (base.compile sub scope) ctx s =
      (.error (.unsupportedShape h.kind h.shape), s.reporting (base.reports ctx.indent))
  | .table _, _, hstray, _, _ => absurd hstray (Option.some_ne_none _).symm
  | .strayHaving query, h, hstray, ctx, s => by
      obtain rfl : query = h := Option.some.inj hstray
      rfl
  | .derived block, h, hstray, ctx, s => by
      have hblock := Block.outcome_of_stray block hstray
        { ctx with indent := ctx.indent + 1 } s
      have hindented : outcome (indented 1 (block.compile sub scope)) ctx s =
          (.error (.unsupportedShape h.kind h.shape), s.reporting (block.reports (ctx.indent + 1))) := by
        rw [outcome_indented, hblock]
      rw [Base.compile, outcome_bind_of_error hindented]
      rfl

end

end

/-- An error other than that of a stray condition on groups. -/
def CompileError.NotHaving (e : CompileError) : Prop := ∀ shape, e ≠ .unsupportedShape "Having" shape

theorem CompileError.notHaving_ofClauses : CompileError.OfClauses CompileError.NotHaving where
  emptyList := by simp [NotHaving]
  columns := by simp [NotHaving]
  missingAlias := by simp [NotHaving]
  unknownColumn := by simp [NotHaving]
  emptyJoinChain := by simp [NotHaving]
  grouping := by simp [NotHaving]
  projection := by simp [NotHaving]

section

variable {P : CompileError → Prop} {sub : SubqueryCompiler} (scope : Scope)

mutual

/-- A block fails because of the stray condition below it, or for a reason of its clauses. -/
theorem Block.compile_failsWith (hP : CompileError.OfClauses P) (hsub : sub.FailsWith P) :
    ∀ block : Block, (∀ h ∈ block.stray?, P (.unsupportedShape h.kind h.shape)) →
      FailsWith P (block.compile sub scope)
  | .mk _ clauses base stages aliases, h =>
      FailsWith.get.bind fun _ => (FailsWith.report _).bind fun _ =>
        (Base.compile_failsWith hP hsub base h).bind fun _ =>
          compileClauses_failsWith hP hsub scope clauses stages aliases _ _

theorem Base.compile_failsWith (hP : CompileError.OfClauses P) (hsub : sub.FailsWith P) :
    ∀ base : Base, (∀ h ∈ base.stray?, P (.unsupportedShape h.kind h.shape)) →
      FailsWith P (base.compile sub scope)
  | .table t, _ => compileTable_failsWith t
  | .derived block, h =>
      ((Block.compile_failsWith hP hsub block h).indented 1).bind fun inner =>
        compileDerived_failsWith inner
  | .strayHaving query, h => .throw (h query rfl)

end

end

/-! ## Layout -/

namespace Query

/-- A query that is kept apart is a statement of its own, which passes its row through. -/
theorem layout_derived {inner : Query} (h : inner.head ≠ .select) (here : Place) :
    (derived inner).layout here = ({}, .derived (.mk inner (inner.layout .order).1
      (inner.layout .order).2 [] none)) := by
  cases inner with
  | select => exact absurd rfl h
  | _ => rfl

/-- A projection is a statement already. -/
theorem layout_derived_of_select {inner : Query} (h : inner.head = .select) (here there : Place) :
    (derived inner).layout here = inner.layout there := by
  obtain ⟨source, stages, aliases, rfl⟩ := eq_select_of_head h
  rfl

theorem stray?_fit (here there : Place) (q : Query) (content : Clauses × Base) :
    (fit here there q content).2.stray? = content.2.stray? := by
  unfold fit
  split <;> rfl

/-- A normal query is laid out over the outermost of its stray conditions. -/
theorem Normal.layout_stray? : ∀ {q : Query} (here : Place), q.Normal →
    (q.layout here).2.stray? = q.spine.find? isStray
  | .table _, _, _ => rfl
  | .derived inner, here, h => by
      have ih := Normal.layout_stray? (q := inner) .order h
      by_cases hinner : inner.head = .select
      · rw [layout_derived_of_select hinner here .order]
        exact ih
      · rw [layout_derived hinner here]
        exact ih
  | .select source _ _, _, h => Normal.layout_stray? (q := source) .order h.2
  | .orderBy source _, _, h => (stray?_fit ..).trans (Normal.layout_stray? (q := source) .grouping h.2)
  | .groupBy source _ _, _, h => (stray?_fit ..).trans (Normal.layout_stray? (q := source) .filter h)
  | .filter source _, _, h => (stray?_fit ..).trans (Normal.layout_stray? (q := source) .joins h.2)
  | .join source _, _, h => (stray?_fit ..).trans (Normal.layout_stray? (q := source) .base h.2)
  | .having source p, _, h => by
      rw [spine, List.find?_cons_of_pos (isStray_having h.1 p)]
      rfl

theorem reports_fit {here there : Place} {q q' : Query} {content content' : Clauses × Base}
    (hq : q'.shape = q.shape) {level : Nat}
    (h : ∀ level, content'.2.reports level = content.2.reports level) :
    (fit here there q' content').2.reports level = (fit here there q content).2.reports level := by
  unfold fit
  split
  · exact h level
  · show _ :: content'.2.reports _ = _ :: content.2.reports _
    rw [h, hq]

/-- On the way down a query nothing of its clause functions is reported. -/
theorem reports_layout_bare : ∀ (q : Query) (here : Place) (level : Nat),
    (q.bare.layout here).2.reports level = (q.layout here).2.reports level
  | .table _, _, _ => rfl
  | .derived inner, here, level => by
      have ih := reports_layout_bare inner .order
      by_cases h : inner.head = .select
      · rw [bare, layout_derived_of_select (head_bare inner ▸ h) here .order,
          layout_derived_of_select h here .order, ih]
      · rw [bare, layout_derived (head_bare inner ▸ h) here, layout_derived h here]
        show _ :: (inner.bare.layout .order).2.reports _ = _ :: (inner.layout .order).2.reports _
        rw [ih, shape_bare]
  | .select source _ _, _, level => by
      show _ :: (source.bare.layout .order).2.reports _ = _ :: (source.layout .order).2.reports _
      rw [reports_layout_bare source, shape_bare]
  | .orderBy source keys, _, _ =>
      reports_fit (shape_bare (.orderBy source keys)) (reports_layout_bare source .grouping)
  | .groupBy source keys none, _, _ =>
      reports_fit (shape_bare (.groupBy source keys none)) (reports_layout_bare source .filter)
  | .groupBy source keys (some p), _, _ =>
      reports_fit (shape_bare (.groupBy source keys (some p))) (reports_layout_bare source .filter)
  | .filter source p, _, _ =>
      reports_fit (shape_bare (.filter source p)) (reports_layout_bare source .joins)
  | .join source joins, _, _ =>
      reports_fit (shape_bare (.join source joins)) (reports_layout_bare source .base)
  | .having _ _, _, _ => rfl

theorem reports_block?_bare (q : Query) (level : Nat) :
    q.bare.block?.map (·.reports level) = q.block?.map (·.reports level) := by
  fun_cases bare q with
  | case3 source =>
      show some (_ :: (source.bare.layout .order).2.reports level) =
        some (_ :: (source.layout .order).2.reports level)
      rw [reports_layout_bare, shape_bare]
  | _ => rfl

/-- The block of a normal query stands over the outermost of its stray conditions. -/
theorem Normal.exists_block {q : Query} (h : q.Normal) (hhead : q.head = .select) :
    ∃ block, q.block? = some block ∧ block.stray? = q.spine.find? isStray := by
  obtain ⟨source, stages, aliases, rfl⟩ := eq_select_of_head hhead
  exact ⟨_, rfl, Normal.layout_stray? .order h.2⟩

end Query

/-! ## Whole compilations -/

/-- The reports of passes, numbered from `number` on. -/
def passReports : Nat → List (Bool × String) → List Event
  | _, [] => []
  | number, (changed, shape) :: passes =>
    .pass number changed shape :: passReports (number + 1) passes

theorem outcome_reportPasses_eq (passes : List Query.Pass) (number : Nat) (ctx : Context)
    (s : Session) : outcome (reportPasses number passes) ctx s =
      (.ok ((), ctx), s.reporting (passReports number (passes.map Query.Pass.view))) := by
  induction passes generalizing number s with
  | nil => rfl
  | cons pass passes ih =>
      rw [reportPasses, outcome_bind_of_ok (outcome_report_eq _ ctx s), ih]
      rfl

theorem outcome_normalize_eq (q : Query) (ctx : Context) (s : Session) :
    outcome (CompileM.normalize q) ctx s =
      (.ok (q.normalize, ctx), s.reporting (passReports 1 (q.passes.map Query.Pass.view))) := by
  rw [CompileM.normalize, outcome_bind_of_ok (outcome_reportPasses_eq q.passes 1 ctx s)]
  rfl

/-- What is reported of a query that goes down to a stray condition. -/
def Query.reports (d : Dialect) (q : Query) : List Event :=
  .enteredQuery d :: (passReports 1 (q.passes.map Query.Pass.view) ++
    (q.normalize.block?.map (·.reports 0)).getD [])

section

variable {q : Query}

theorem Query.compile_of_block {block : Block} (h : q.block? = some block) (sub : SubqueryCompiler)
    (scope : Scope) : q.compile sub scope = block.compile sub scope := by
  rw [Query.compile, h]

/-- A query with a stray condition is compiled down to the outermost one, and no clause is come to. -/
theorem compileQuery_of_stray {stray : Query} (h : q.normalize.spine.find? Query.isStray = some stray)
    (d : Dialect) (scope : Scope) (session : Session) :
    compileQuery d scope q session =
      (.error (.unsupportedShape "Having" stray.shape), session.reporting (q.reports d)) := by
  have hnormal : q.normalize.Normal := (Query.loop_passes q).normal_and_length.1.rooted
  obtain ⟨block, hblock, hstray⟩ := hnormal.exists_block (Query.head_rooted q.fused)
  have hkind : stray.kind = "Having" := by
    have hstray := List.find?_some h
    cases stray with
    | having => rfl
    | _ => exact absurd hstray Bool.false_ne_true
  have hcompile := Block.outcome_of_stray
    (compileWithin (q.normalize.subqueries + scope.nesting)) scope block (hstray.trans h) (.empty d)
    ((session.reporting [.enteredQuery d]).reporting
      (passReports 1 (q.passes.map Query.Pass.view)))
  have htext : outcome (q.compileText scope) (.empty d) session =
      (.error (.unsupportedShape "Having" stray.shape), session.reporting (q.reports d)) := by
    rw [Query.compileText, outcome_bind_of_ok (outcome_get _ _),
      outcome_bind_of_ok (outcome_report_eq _ _ _), outcome_bind_of_ok (outcome_normalize_eq _ _ _),
      Query.compileIn, Query.compile_of_block hblock]
    refine (outcome_bind_of_error hcompile _).trans ?_
    rw [hkind]
    simp [Session.reporting, Query.reports, hblock, List.foldl_append, Context.empty]
  exact start_of_error htext

/-- A query that differs in clause functions only is compiled with the same outcome. -/
theorem compileQuery_of_stray_congr {q' stray : Query} (hbare : q'.bare = q.bare)
    (h : q.normalize.spine.find? Query.isStray = some stray) (d : Dialect) (scope scope' : Scope)
    (session : Session) : compileQuery d scope' q' session = compileQuery d scope q session := by
  have hnormal : q'.normalize.bare = q.normalize.bare := Query.normalize_congr hbare
  have hfind : (q'.normalize.spine.find? Query.isStray).map Query.bare = some stray.bare := by
    rw [← Query.find?_isStray_bare, hnormal, Query.find?_isStray_bare, h]
    rfl
  obtain ⟨stray', h', hstray⟩ := Option.map_eq_some_iff.1 hfind
  have hshape : stray'.shape = stray.shape := by
    rw [← Query.shape_bare stray', hstray, Query.shape_bare]
  have hreports : q'.reports d = q.reports d := by
    rw [Query.reports, Query.reports, (Query.passes_congr hbare).1,
      ← Query.reports_block?_bare q'.normalize, hnormal, Query.reports_block?_bare]
  rw [compileQuery_of_stray h, compileQuery_of_stray h', hshape, hreports]

/-- Without subqueries and stray conditions, a compilation fails for other reasons only. -/
theorem compileQuery_notHaving (hq : q.subqueries = 0) {scope : Scope} (hs : scope.nesting = 0)
    (h : q.normalize.spine.find? Query.isStray = none) {d : Dialect} {session : Session}
    {e : CompileError} (he : (compileQuery d scope q session).1 = .error e) : e.NotHaving := by
  have hnormal : q.normalize.Normal := (Query.loop_passes q).normal_and_length.1.rooted
  obtain ⟨block, hblock, hstray⟩ := hnormal.exists_block (Query.head_rooted q.fused)
  -- Nothing is nested, so that no subquery is ever entered.
  have hsub : (compileWithin 0).FailsWith CompileError.NotHaving := fun _ _ =>
    .throw (by simp [CompileError.NotHaving])
  have hcompile : FailsWith CompileError.NotHaving (q.normalize.compileIn scope) := by
    rw [Query.compileIn, Query.subqueries_normalize, hq, hs, Query.compile_of_block hblock]
    refine Block.compile_failsWith scope CompileError.notHaving_ofClauses hsub block ?_
    rw [hstray.trans h]
    exact fun _ => nofun
  have htext : FailsWith CompileError.NotHaving (q.compileText scope) :=
    FailsWith.get.bind fun _ => (FailsWith.report _).bind fun _ => by
      intro ctx s e
      rw [outcome_bind_of_ok (outcome_normalize_eq q ctx s)]
      exact fun he => (hcompile.bind fun _ => FailsWith.get.bind fun _ =>
        (FailsWith.report _).bind fun _ => .pure _) he
  exact htext.start he

end

/-- A condition on groups is applied or refused, never dropped.  Where no subquery is written, the
compilation of a query ends with the error of a condition on groups exactly if a stray one stands
on its spine.  If one does, subqueries or not, the error shows the outermost one of the normal form,
nothing has been built, and the outcome, down to what is reported on the way, is that of every query
with the same clauses over the same tables, whatever functions these are given. -/
theorem compileQuery_stray_iff (d : Dialect) (scope : Scope) (session : Session) (q : Query) :
    (q.subqueries = 0 → scope.nesting = 0 →
      ((∃ shape, (compileQuery d scope q session).1 = .error (.unsupportedShape "Having" shape)) ↔
        ∃ s ∈ q.spine, s.isStray)) ∧
    ((∃ s ∈ q.spine, s.isStray) →
      (∃ stray, q.normalize.spine.find? Query.isStray = some stray ∧
        (compileQuery d scope q session).1 = .error (.unsupportedShape "Having" stray.shape)) ∧
      (compileQuery d scope q session).2.supply = session.supply ∧
      ∀ (scope' : Scope) (q' : Query), q'.bare = q.bare →
        compileQuery d scope' q' session = compileQuery d scope q session) := by
  have hspine : (∃ s ∈ q.spine, s.isStray) ↔
      ∃ stray, q.normalize.spine.find? Query.isStray = some stray := by
    rw [← List.any_eq_true, ← Query.any_isStray_normalize, ← Option.isSome_iff_exists,
      List.find?_isSome, List.any_eq_true]
  refine ⟨fun hq hs => ⟨?_, ?_⟩, ?_⟩
  · rintro ⟨shape, herror⟩
    rw [hspine, ← Option.isSome_iff_exists, Option.isSome_iff_ne_none]
    intro hnone
    exact compileQuery_notHaving hq hs hnone herror shape rfl
  · intro h
    obtain ⟨stray, hstray⟩ := hspine.1 h
    exact ⟨stray.shape, by rw [compileQuery_of_stray hstray]⟩
  · intro h
    obtain ⟨stray, hstray⟩ := hspine.1 h
    refine ⟨⟨stray, hstray, by rw [compileQuery_of_stray hstray]⟩, ?_, ?_⟩
    · rw [compileQuery_of_stray hstray]
      rfl
    · intro scope' q' hbare
      exact compileQuery_of_stray_congr hbare hstray d scope scope' session

/-- A second condition on the groups of a table kept apart, under a condition that reads it. -/
private def doubleHaving : Query :=
  .filter
    (.derived (.having
      (.having (.groupBy (.table ⟨"Users", ["Id", "Name"]⟩) [.named .row "Name"] none)
        (.compare .gt .countStar (.literal (.int 1))))
      (.compare .lt .countStar (.literal (.int 9)))))
    (.compare .eq (.named .row "Nothing") .null)

/-- The first condition is taken in by the grouping, the second is refused before anything else, the
lookup that would fail included. -/
theorem compileQuery_stray_doubleHaving :
    doubleHaving.subqueries = 0 ∧ Scope.nesting [] = 0 ∧ (∃ s ∈ doubleHaving.spine, s.isStray) ∧
    (∃ shape, (compileQuery .sqlite [] doubleHaving {}).1 =
      .error (.unsupportedShape "Having" shape)) ∧
    (compileQuery .sqlite [] doubleHaving {}).1 =
      .error (.unsupportedShape "Having" "Having(GroupByHaving(From(Users)))") := by
  obtain ⟨hiff, houtcome⟩ := compileQuery_stray_iff .sqlite [] {} doubleHaving
  have hspine : ∃ s ∈ doubleHaving.spine, s.isStray := List.any_eq_true.1 (by decide)
  obtain ⟨⟨stray, hstray, herror⟩, -, -⟩ := houtcome hspine
  have hshape : (doubleHaving.normalize.spine.find? Query.isStray).map Query.shape =
      some "Having(GroupByHaving(From(Users)))" := by decide
  rw [hstray] at hshape
  rw [Option.some.inj hshape] at herror
  exact ⟨rfl, rfl, hspine, (hiff rfl rfl).2 hspine, herror⟩

end QueryCompiler
