import QueryCompiler.Proofs.Fusion.NormalForm
import QueryCompiler.Proofs.IdentityIndependence
import QueryCompiler.Proofs.Isolation.Tables
import QueryCompiler.Proofs.Layout.Statements

/-! # `QueryCompiler.Proofs.Aggregates` — the aggregate of a query and its groups

The aggregate of a query is one more projection over it.  Projections fuse, and what stands below
them goes into the same statement as far as its places are free.  So a grouping is not always kept
apart from the aggregate:

    count (table t)                        SELECT COUNT(*) FROM t
    count (filter p (groupBy k q))         SELECT COUNT(*) FROM (... GROUP BY k) WHERE p
    count (groupBy k q)                    SELECT COUNT(*) ... GROUP BY k

The last statement has a row for each group, and no row if there is no group.  We show that the
statement of an aggregate has one output, the aggregate, and say of which query it has a `GROUP BY`
clause: one that ends in a grouping, below projections and, below these, orderings.
-/

namespace QueryCompiler

open CompileM

/-! ## The grouping that is shared -/

namespace Query

/-- The grouping that a query ends in, seen through orderings. -/
def orderedGrouping? : Query → Option Grouping
  | .orderBy source _ => source.orderedGrouping?
  | .groupBy _ keys condition => some ⟨keys, condition⟩
  | .having (.groupBy _ keys none) condition => some ⟨keys, some condition⟩
  | _ => none

/-- The grouping that a further projection shares its statement with: projections fuse with it. -/
def sharedGrouping? : Query → Option Grouping
  | .select source _ _ => source.sharedGrouping?
  | q => q.orderedGrouping?

theorem orderedGrouping?_having {q : Query} (h : q.head ≠ .openGrouping) (p : ExprTerm) :
    (having q p).orderedGrouping? = none := by
  cases q with
  | groupBy source keys condition =>
      cases condition with
      | none => exact absurd rfl h
      | some => rfl
  | _ => rfl

theorem sharedGrouping?_of_head {q : Query} (h : q.head ≠ .select) :
    q.sharedGrouping? = q.orderedGrouping? := by
  cases q with
  | select => exact absurd rfl h
  | _ => rfl

/-- A pass fuses no grouping away. -/
theorem orderedGrouping?_fuseOnce (q : Query) :
    q.fuseOnce.1.orderedGrouping? = q.orderedGrouping? := by
  fun_induction fuseOnce q with
  | case6 source keys _ source' _ hpass ih =>
      rw [hpass] at ih
      exact ih
  | case10 source p hopen source' _ hpass _ =>
      obtain ⟨hsource, hsource'⟩ := head_ne_of_pass hopen hpass
      rw [orderedGrouping?_having hsource, orderedGrouping?_having hsource']
  | _ => rfl

theorem sharedGrouping?_fuseOnce (q : Query) :
    q.fuseOnce.1.sharedGrouping? = q.sharedGrouping? := by
  fun_induction sharedGrouping? q with
  | case1 source stages aliases ih =>
      by_cases hsource : source.head = .select
      · obtain ⟨source, _, _, rfl⟩ := eq_select_of_head hsource
        rfl
      · rw [fuseOnce_select hsource]
        exact ih
  | case2 q hselect =>
      have hq : q.head ≠ .select := by
        intro hhead
        obtain ⟨source, stages, aliases, rfl⟩ := eq_select_of_head hhead
        exact hselect source stages aliases rfl
      rw [sharedGrouping?_of_head (head_fuseOnce_ne hq (by decide)), orderedGrouping?_fuseOnce]

theorem sharedGrouping?_fused (q : Query) : q.fused.sharedGrouping? = q.sharedGrouping? := by
  induction q using passes_induction with
  | done q hq => rw [fused_of_unchanged hq]
  | pass q hq ih => rw [fused_of_changed hq, ih, sharedGrouping?_fuseOnce]

theorem grouping_fit {here there : Place} {q : Query} {content : Clauses × Base}
    (h : here.rank ≤ there.rank) : (fit here there q content).1.grouping = content.1.grouping := by
  rw [fit, if_pos h]

/-- In a query with nothing left to fuse, the grouping below orderings is that of the statement. -/
theorem layout_grouping {q : Query} (h : q.Normal) :
    (q.layout .order).1.grouping = q.orderedGrouping? := by
  have hinner : ∀ {q : Query} {here : Place}, Place.grouping.rank < here.rank →
      (q.layout here).1.grouping = none := fun hlt => (layout_within _ _).grouping hlt
  have hbelow : ∀ {q : Query} {here : Place}, here.rank ≤ Place.grouping.rank → q.Normal →
      q.head ≠ .orderBy → (q.layout here).1.grouping = q.orderedGrouping? := by
    intro q here hhere hnormal hhead
    cases q with
    | orderBy => exact absurd rfl hhead
    | having source p =>
        rw [orderedGrouping?_having hnormal.1]
        rfl
    | derived inner => cases inner <;> rfl
    | filter source p =>
        have hfits : here.rank ≤ Place.filter.rank := Nat.le_trans hhere (by decide)
        exact (grouping_fit hfits).trans (hinner (by decide))
    | join source joins =>
        have hfits : here.rank ≤ Place.joins.rank := Nat.le_trans hhere (by decide)
        exact (grouping_fit hfits).trans (hinner (by decide))
    | groupBy source keys condition => exact grouping_fit hhere
    | _ => rfl
  by_cases hhead : q.head = .orderBy
  · obtain ⟨source, keys, rfl⟩ := eq_orderBy_of_head hhead
    show (source.layout .grouping).1.grouping = source.orderedGrouping?
    exact hbelow (by decide) h.2 h.1
  · exact hbelow (by decide) h hhead

/-- Further stages end up last in the fused projection. -/
theorem exists_fused_select (q : Query) :
    ∀ (stages : List RowTerm) (aliases : Option (List String)), ∃ source earlier,
      (select q stages aliases).fused = select source (earlier ++ stages) aliases := by
  fun_induction sharedGrouping? q with
  | case1 source first _ ih =>
      intro stages aliases
      obtain ⟨source', earlier, hfused⟩ := ih (first ++ stages) aliases
      refine ⟨source', earlier ++ first, ?_⟩
      rw [fused_select_select, hfused, List.append_assoc]
  | case2 q hselect =>
      intro stages aliases
      have hq : q.head ≠ .select := by
        intro hhead
        obtain ⟨source, stages, aliases, rfl⟩ := eq_select_of_head hhead
        exact hselect source stages aliases rfl
      exact ⟨q.fused, [], fused_select hq stages aliases⟩

end Query

/-! ## The aggregate -/

def AggregateFunc.term : AggregateFunc → ExprTerm
  | .count => .countStar
  | func => .aggregate func false (.first .row)

theorem Query.aggregate_eq (func : AggregateFunc) (q : Query) :
    q.aggregate func = .select q [.exprs [func.term]] none := by
  cases func <;> rfl

/-- The node counts rows, or takes another function of an expression. -/
inductive Expr.AggregateOf : AggregateFunc → Expr → Prop
  | rows {id} : AggregateOf .count (.countStar id)
  | values {id func operand} : func ≠ .count → AggregateOf func (.aggregate id func false operand)

/-- The written form counts rows, or takes another function of an expression. -/
inductive Sql.Scalar.AggregateOf : AggregateFunc → Sql.Scalar → Prop
  | rows : AggregateOf .count .countStar
  | values {func operand} : func ≠ .count → AggregateOf func (.aggregate func false operand)

/-- An aggregate that is not registered is written as one. -/
theorem Writes.aggregateOf {sub : SubqueryCompiler} {func : AggregateFunc} {e : Expr} {μ ν : Moment}
    {t : Sql.Scalar} (h : Writes sub e μ t ν) (he : Expr.AggregateOf func e)
    (hid : μ.referenceOf e.id = none) : Sql.Scalar.AggregateOf func t := by
  cases h with
  | registered hread => cases hid.symm.trans hread
  | bound _ _ => cases he
  | assembled _ ht _ =>
      cases he with
      | rows =>
          cases ht
          exact .rows
      | values hfunc =>
          cases ht
          exact .values hfunc
  | subquery _ _ _ _ _ => cases he

/-- The aggregate of a row is a node of its own, the last to be built. -/
theorem AggregateFunc.exists_eval_term (func : AggregateFunc) (scope : Scope) (s : Supply) :
    ∃ n, s.used ≤ n ∧ (func.term.eval scope s).1.id = s.ids n ∧
      Expr.AggregateOf func (func.term.eval scope s).1 := by
  by_cases hfunc : func = .count
  · subst hfunc
    exact ⟨s.used, Nat.le_refl _, rfl, .rows⟩
  · have hterm : func.term = .aggregate func false (.first .row) := by
      cases func with
      | count => exact absurd rfl hfunc
      | _ => rfl
    have hoperand := (ExprTerm.first .row).eval_onward scope s
    refine ⟨_, hoperand.used_le, ?_, ?_⟩
    · rw [hterm]
      exact congrFun hoperand.ids_eq _
    · rw [hterm]
      exact .values hfunc

/-- A projection that ends in an aggregate leaves one expression, a new aggregate. -/
theorem exists_runStages_aggregate (scope : Scope) (earlier : List RowTerm) (func : AggregateFunc)
    (row : Row) (s : Supply) : ∃ e n,
      (RowTerm.runStages scope (earlier ++ [.exprs [func.term]]) row s).1.flatten = [e] ∧
        s.used ≤ n ∧ e.id = s.ids n ∧ Expr.AggregateOf func e := by
  have hearlier := RowTerm.runStages_onward scope earlier row s
  obtain ⟨n, hn, hid, he⟩ := func.exists_eval_term
    (.clause (RowTerm.runStages scope earlier row s).1 :: scope)
    (RowTerm.runStages scope earlier row s).2
  rw [hearlier.ids_eq] at hid
  rw [RowTerm.runStages_append]
  exact ⟨_, n, rfl, Nat.le_trans hearlier.used_le hn, hid, he⟩

/-! ## The statement -/

section

variable {T : Table → Prop} {sub : SubqueryCompiler} {scope : Scope} {μ ν : Moment} {block : Block}
  {compiled : Compiled}

/-- The projection of a block starts at a moment that the block passes. -/
theorem Block.exists_projecting (scripts : ∀ q scope, Script T (sub q scope))
    (h : (block.compile sub scope).Takes μ compiled ν) :
    ∃ κ row ξ, κ ∈ (block.script scripts scope).moments μ ∧
      (CompileM.build (RowTerm.runStages scope block.stages row)).Takes κ compiled.row ξ ∧
      ∃ stop, WritesAll sub compiled.row.flatten ξ (compiled.select.outputs.map (·.value)) stop := by
  obtain ⟨body, clauses, base, stages, aliases⟩ := block
  simp only [Block.compile, compileClauses, takes_bind, takes_get, takes_pure] at h
  obtain ⟨_, _, ⟨rfl, rfl⟩, _, entered, hentered, ⟨source, row⟩, opened, hbase, ⟨joins, joined⟩,
    joinedAt, hjoins, filterSql, _, hfilter, ⟨keySql, havingSql, grouped⟩, _, hgrouping, orderSql, κ,
    horder, projected, ξ, hprojected, ⟨outputSql, fields⟩, stop, hprojection, rfl, rfl⟩ := h
  obtain ⟨b, htexts, -, rfl, hnodes, -⟩ := exists_batch_of_projection hprojected hprojection
  refine ⟨κ, grouped, b.start, ?_, hprojected, b.stop, ?_⟩
  · refine Script.mem_moments_bind.2 (.inr ⟨_, _, takes_get.2 ⟨rfl, rfl⟩, ?_⟩)
    refine Script.mem_moments_bind.2 (.inr ⟨_, _, hentered, ?_⟩)
    refine Script.mem_moments_bind.2 (.inr ⟨_, _, hbase, ?_⟩)
    refine Script.mem_moments_bind.2 (.inr ⟨_, _, hjoins, ?_⟩)
    refine Script.mem_moments_bind.2 (.inr ⟨_, _, hfilter, ?_⟩)
    refine Script.mem_moments_bind.2 (.inr ⟨_, _, hgrouping, ?_⟩)
    refine Script.mem_moments_bind.2 (.inr ⟨_, _, horder, ?_⟩)
    exact Script.start_mem_moments _ _
  · have hw := b.writes
    rw [hnodes] at hw
    exact htexts ▸ hw

/-- If the projection of a block ends in an aggregate, this is what the statement has for output: the
node has just been built, and what is registered was built before. -/
theorem Block.exists_output {depth : Nat} {func : AggregateFunc} {earlier : List RowTerm}
    (hstages : block.stages = earlier ++ [.exprs [func.term]]) (hempty : μ.context.aliases = [])
    (hinj : Function.Injective μ.session.supply.ids)
    (hscope : μ.session.supply.Avoids (· ∈ scope.ids))
    (h : (block.compile (compileWithin depth) scope).Takes μ compiled ν) :
    ∃ value name, compiled.select.outputs = [.mk value name] ∧ Sql.Scalar.AggregateOf func value := by
  let script : Script (fun _ => False) (block.compile (compileWithin depth) scope) :=
    block.script (compileWithin.script depth) scope
  obtain ⟨κ, row, ξ, hκ, hrow, stop, hwrites⟩ :=
    Block.exists_projecting (compileWithin.script depth) h
  obtain ⟨hrow, hctx, -⟩ := takes_build.1 hrow
  obtain ⟨e, n, hflatten, hn, hid, he⟩ :=
    exists_runStages_aggregate scope earlier func row κ.session.supply
  rw [← hstages, hrow] at hflatten
  have hunregistered : ξ.referenceOf e.id = none := by
    have hkeeps : script.Keeps (· ∈ scope.ids) μ Compiled.leaves :=
      block.script_keeps (compileWithin.script_keeps depth)
        (Supply.holds_leaves.2 fun _ hid => .inl hid)
    have hstart : μ.Allocates (· ∈ scope.ids) := by
      intro id hregistered
      rw [Context.Registered, hempty] at hregistered
      exact absurd hregistered List.not_mem_nil
    show ξ.context.referenceOf e.id = none
    rw [← hctx, Context.referenceOf_eq_none]
    intro hregistered
    exact ((hkeeps hstart).1 κ hκ hregistered).not_upcoming
      (Script.precedes_of_mem_moments hκ).supply hinj hscope hn hid.symm
  rw [hflatten] at hwrites
  have hwidth : compiled.select.outputs.length = 1 := by
    rw [← List.length_map, hwrites.length_eq, List.length_singleton]
  obtain ⟨output, houtput⟩ := List.length_eq_one_iff.1 hwidth
  obtain ⟨value, name⟩ := output
  rw [houtput] at hwrites
  cases hwrites with
  | cons hvalue _ => exact ⟨value, name, houtput, hvalue.aggregateOf he hunregistered⟩

/-- The statement has the clauses of a grouping over the row: a `GROUP BY` clause if there is one, with
its keys and no others, and a `HAVING` clause if it has a condition, with this one. -/
structure Sql.Select.GroupedBy (sub : SubqueryCompiler) (scope : Scope) (row : Row) (μ : Moment)
    (grouping : Option Grouping) (select : Sql.Select) : Prop where
  keys_eq_nil : select.keys = [] ↔ grouping = none
  keys_length : select.keys.length = grouping.elim 0 (·.keys.length)
  having_isSome : select.having.isSome = (grouping.bind (·.having)).isSome
  written : ∃ (keys : Batch sub (Grouping.nodesOn scope grouping row) μ)
    (having : Batch sub (ExprTerm.nodesOn scope (grouping.bind (·.having)) row) keys.stop),
    select.keys = keys.texts ∧ select.having.toList = having.texts

theorem StatementRun.groupedBy (run : StatementRun sub scope block μ) :
    run.compiled.select.GroupedBy sub scope run.joined run.filter.stop block.clauses.grouping := by
  obtain ⟨hnodes, -, -⟩ := takes_build.1 run.keys.built
  have hlength : run.compiled.select.keys.length = run.keys.nodes.length := by
    rw [run.keys_eq, run.keys.writes.length_eq]
  have hhaving : run.compiled.select.having.toList.length =
      (block.clauses.grouping.bind (·.having)).toList.length := by
    obtain ⟨s, hs⟩ := run.having.length_texts
    rw [run.having_eq, hs, ExprTerm.length_nodesOn]
  have hnonempty := run.keys_nonempty
  refine ⟨?_, ?_, ?_, run.keys, run.having, run.keys_eq, run.having_eq⟩
  · rw [← List.length_eq_zero_iff, hlength, List.length_eq_zero_iff]
    refine ⟨fun hnil => by_contra fun hsome => hnonempty hsome hnil, fun hnone => ?_⟩
    rw [← hnodes, hnone]
    rfl
  · rw [hlength, ← hnodes]
    cases block.clauses.grouping with
    | none => rfl
    | some grouping => exact ExprTerm.evalAll_length _ grouping.keys _
  · generalize run.compiled.select.having = having at hhaving ⊢
    generalize block.clauses.grouping.bind (·.having) = condition at hhaving ⊢
    cases having <;> cases condition <;> simp_all

end

section

variable {d : Dialect} {scope : Scope} {session : Session} {q : Query} {func : AggregateFunc}

/-- The block of an aggregate: it shares its statement with the grouping below. -/
theorem Query.block?_aggregate (func : AggregateFunc) (q : Query) :
    ∃ block earlier, (q.aggregate func).normalize.block? = some block ∧
      block.stages = earlier ++ [.exprs [func.term]] ∧
      block.clauses.grouping = q.sharedGrouping? := by
  obtain ⟨source, earlier, hfused⟩ := q.exists_fused_select [.exprs [func.term]] none
  rw [← aggregate_eq] at hfused
  have hnormal : (q.aggregate func).fused.Normal := (loop_passes _).normal_and_length.1
  have hshared := sharedGrouping?_fused (q.aggregate func)
  rw [hfused] at hnormal hshared
  refine ⟨.mk source (source.layout .order).1 (source.layout .order).2 _ none, earlier, ?_, rfl, ?_⟩
  · rw [normalize, hfused]
    rfl
  · calc (source.layout .order).1.grouping = source.orderedGrouping? := layout_grouping hnormal.2
      _ = source.sharedGrouping? := (sharedGrouping?_of_head hnormal.1).symm
      _ = (q.aggregate func).sharedGrouping? := hshared
      _ = q.sharedGrouping? := by rw [aggregate_eq, sharedGrouping?]

/-- The one output, from a supply that hands out no identity twice. -/
theorem Query.CompilesTo.exists_output {compiled : Compiled} {last : Context}
    (hinj : Function.Injective session.supply.ids) (hscope : session.supply.Avoids (· ∈ scope.ids))
    (h : (q.aggregate func).CompilesTo d scope session compiled last) :
    ∃ value name, compiled.select.outputs = [.mk value name] ∧ Sql.Scalar.AggregateOf func value := by
  obtain ⟨μ, ν, hμ, hcompiled, -⟩ := Query.compilesTo_iff.1 h
  obtain ⟨μ', hμ', hcontext, hsupply⟩ := exists_enter d (q.aggregate func) ⟨.empty d, session⟩
  obtain ⟨-, rfl⟩ := hμ.unique hμ'
  obtain ⟨block, earlier, hblock, hstages, -⟩ := Query.block?_aggregate func q
  rw [Query.compileIn, Query.compile, hblock] at hcompiled
  exact Block.exists_output hstages (hcontext ▸ rfl) (hsupply ▸ hinj) (hsupply ▸ hscope) hcompiled

/-- Sessions that hand out new identities come to the same statement. -/
theorem Query.CompilesTo.exists_select_eq {session' : Session} {compiled : Compiled} {last : Context}
    (h : FreshIds scope.ids session.supply.upcoming)
    (h' : FreshIds scope.ids session'.supply.upcoming)
    (hrun : q.CompilesTo d scope session compiled last) :
    ∃ compiled' last', q.CompilesTo d scope session' compiled' last' ∧
      compiled.select = compiled'.select := by
  have hs : scope.Alike (.ofFresh h h') scope := .refl_ofFresh fun _ hi => hi
  have hq : q.Alike Eq q := .refl (fun _ => rfl) q
  have hstep : InStep (.ofFresh h h') d d (Compiled.Alike (.ofFresh h h'))
      (q.enter d >>= Query.compileIn scope) (q.enter d >>= Query.compileIn scope) :=
    ((InStep.report _ _).bind fun _ => InStep.normalize hq.normalize).bind fun hn => hn.compileIn hs
  obtain ⟨_, hrun⟩ := hrun
  have halike := hstep _ _ session session' (.empty _ d d) (.ofFresh h h')
  rw [hrun] at halike
  generalize hrun' : outcome (q.enter d >>= Query.compileIn scope) (.empty d) session' = r at halike
  cases halike with
  | ok hcompiled _ _ => exact ⟨_, _, ⟨_, hrun'⟩, hcompiled.select_eq⟩

/-- The statement shares the clauses of the grouping below. -/
theorem Query.CompilesTo.exists_groupedBy {compiled : Compiled} {last : Context}
    (h : (q.aggregate func).CompilesTo d scope session compiled last) :
    ∃ depth block μ, ∃ run : SelectRun (compileWithin depth) scope block μ,
      (q.aggregate func).Visits d scope session ⟨depth, .block scope block, μ⟩ ∧
      run.compiled = compiled ∧
      compiled.select.GroupedBy (compileWithin depth) scope run.joined run.filter.stop
        q.sharedGrouping? := by
  obtain ⟨μ, ν, hμ, hcompiled, -⟩ := Query.compilesTo_iff.1 h
  obtain ⟨block, earlier, hblock, -, hgrouping⟩ := Query.block?_aggregate func q
  rw [Query.compileIn, Query.compile, hblock] at hcompiled
  obtain ⟨run, rfl, -⟩ := exists_statementRun hcompiled
  refine ⟨_, block, μ, run.toSelectRun, ⟨block, μ, hμ, hblock, .refl⟩, rfl, ?_⟩
  rw [← hgrouping]
  exact run.groupedBy

end

/-- The statement of an aggregate, for every query and function, from a supply whose identities are
new: it has exactly one output, the aggregate of the function.  It has a `GROUP BY` clause if and only
if the query ends in a grouping below projections and orderings, with the keys of this grouping over
the row that the statement reads, and then a `HAVING` clause if there is a condition on the groups.
Any other grouping is inside a derived table, and the aggregate is taken over the whole source. -/
theorem compileScalar_aggregates (d : Dialect) (scope : Scope) (func : AggregateFunc) (q : Query)
    (session : Session) (c : CompiledQuery) (h : FreshIds scope.ids session.supply.upcoming)
    (hok : (compileScalar d scope ⟨func, q⟩ session).1 = .ok c) :
    ∃ s compiled last, s.supply = session.supply ∧
      (q.aggregate func).CompilesTo d scope s compiled last ∧
      c = ⟨compiled.select.render d 0, last.params⟩ ∧
      (∃ value name, compiled.select.outputs = [.mk value name] ∧
        Sql.Scalar.AggregateOf func value) ∧
      ∃ depth block μ, ∃ run : SelectRun (compileWithin depth) scope block μ,
        (q.aggregate func).Visits d scope s ⟨depth, .block scope block, μ⟩ ∧
        run.compiled = compiled ∧
        compiled.select.GroupedBy (compileWithin depth) scope run.joined run.filter.stop
          q.sharedGrouping? := by
  obtain ⟨s, hs, hquery⟩ := compileScalar_eq_ok hok
  obtain ⟨compiled, last, hrun, hc⟩ := compileQuery_iff_compilesTo.1 hquery
  -- the same identities from a supply that has handed out none of them
  let restarted : Session := { session with supply := ⟨session.supply.upcoming, 0⟩ }
  have hfresh : FreshIds scope.ids s.supply.upcoming := hs ▸ h
  have hfresh' : FreshIds scope.ids restarted.supply.upcoming := h
  obtain ⟨compiled', last', hrun', hselect⟩ := hrun.exists_select_eq hfresh hfresh'
  have houtput := hrun'.exists_output h.injective fun n _ => h.new n
  rw [← hselect] at houtput
  exact ⟨s, compiled, last, hs, hrun, hc, houtput, hrun.exists_groupedBy⟩

private def customerNames : Query :=
  .groupBy (.table ⟨"customers", ["Id", "Name"]⟩) [.named .row "Name"] none

private def countText (q : Query) : Option String :=
  ((compileScalar .generic [] ⟨.count, q⟩ {}).1.map (·.sql)).toOption

/-- The count of the names is a count for each name.  Only if they are kept apart there is one. -/
theorem compileScalar_customerNames_ne :
    countText customerNames =
      some "SELECT\n    COUNT(*) AS Proj0\nFROM\n    customers a0\nGROUP BY\n    a0.Name" ∧
    countText customerNames.derived =
      some ("SELECT\n    COUNT(*) AS Proj0\nFROM (\n    SELECT\n        a0.Name AS Name\n    FROM\n" ++
        "        customers a0\n    GROUP BY\n        a0.Name\n) a1") := by
  constructor <;> decide +kernel

/-- Names that more than one customer has, in order. -/
private def repeatedNames : Query :=
  .select (.orderBy (.having customerNames (.compare .gt .countStar (.literal (.int 1))))
    [⟨.ascending, .named .row "Name"⟩]) [.tuple [.expr (.named .row "Name")]] none

/-- The grouping is shared through a projection, an ordering and a condition on the groups. -/
theorem compileScalar_aggregates_repeatedNames :
    FreshIds (Scope.ids []) (Supply.counting 0).upcoming ∧
    ∃ c, (compileScalar .generic [] ⟨.max, repeatedNames⟩ {}).1 = .ok c ∧
      c.sql = "SELECT\n    MAX(a0.Name) AS Proj0\nFROM\n    customers a0\nGROUP BY\n    a0.Name\n" ++
        "HAVING\n    COUNT(*) > @p0\nORDER BY\n    a0.Name ASC" ∧
      ∃ s compiled last, s.supply = Supply.counting 0 ∧
        (repeatedNames.aggregate .max).CompilesTo .generic [] s compiled last ∧
        c = ⟨compiled.select.render .generic 0, last.params⟩ ∧
        (∃ value name, compiled.select.outputs = [.mk value name] ∧
          Sql.Scalar.AggregateOf .max value) ∧
        ∃ depth block μ, ∃ run : SelectRun (compileWithin depth) [] block μ,
          (repeatedNames.aggregate .max).Visits .generic [] s ⟨depth, .block [] block, μ⟩ ∧
          run.compiled = compiled ∧
          compiled.select.GroupedBy (compileWithin depth) [] run.joined run.filter.stop
            (some ⟨[.named .row "Name"], some (.compare .gt .countStar (.literal (.int 1)))⟩) := by
  have hfresh : FreshIds (Scope.ids []) (Supply.counting 0).upcoming := by
    refine ⟨fun m n hmn => ?_, fun _ => List.not_mem_nil⟩
    simpa [Supply.upcoming, Supply.counting] using hmn
  have hrun : (compileScalar .generic [] ⟨.max, repeatedNames⟩ {}).1.toOption.map (·.sql) =
      some ("SELECT\n    MAX(a0.Name) AS Proj0\nFROM\n    customers a0\nGROUP BY\n    a0.Name\n" ++
        "HAVING\n    COUNT(*) > @p0\nORDER BY\n    a0.Name ASC") := by
    decide +kernel
  obtain ⟨c, hc, hsql⟩ := Option.map_eq_some_iff.1 hrun
  have hok := Except.eq_ok_of_toOption hc
  exact ⟨hfresh, c, hok, hsql,
    compileScalar_aggregates .generic [] .max repeatedNames {} c hfresh hok⟩

end QueryCompiler
