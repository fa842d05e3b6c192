import QueryCompiler.Proofs.Layout.Clauses
import QueryCompiler.Proofs.Lines.Outline
import QueryCompiler.Proofs.Scoping.References

/-! # `QueryCompiler.Proofs.Layout.Statements` — no clause is lost or written twice

A query that is compiled comes to one statement for each of its blocks, and each of these is written
clause by clause, from what the clause builds over the row at hand.  So the words of the text are
those of the blocks, and since every clause of the query went to exactly one block, there are as many
of each as the query has clauses that ask for it.
-/

namespace QueryCompiler

open CompileM
open Text (OneLine)

/-! ## The words of clauses and blocks -/

def Clause.words : Clause → List Keyword
  | .order keys => Keyword.announce .order keys
  | .grouping g => .grouping :: Keyword.announce .having g.having.toList
  | .filter _ => [.filter]
  | .joins js => js.map fun _ => .join

/-- The words of the clauses of one statement, in the order of the text. -/
def Clauses.words (c : Clauses) : List Keyword :=
  (c.joins.getD []).map (fun _ => .join) ++ Keyword.announce .filter c.filter.toList ++
    Keyword.announce .grouping c.grouping.toList ++
    Keyword.announce .having (c.grouping.bind (·.having)).toList ++
    Keyword.announce .order (c.order.getD [])

mutual

/-- The words of a block and of the derived tables in it. -/
def Block.outline : Block → List Keyword
  | .mk _ clauses base _ _ => .select :: base.outline ++ clauses.words

def Base.outline : Base → List Keyword
  | .table _ => [.table]
  | .derived block => .opened :: block.outline ++ [.closed]
  | .strayHaving _ => []

end

/-- The clauses are announced from the innermost to the outermost. -/
theorem Clauses.words_eq (c : Clauses) : c.words = c.all.reverse.flatMap Clause.words := by
  obtain ⟨joins, filter, grouping, order⟩ := c
  cases joins <;> cases filter <;> cases grouping <;> cases order <;>
    simp [Clauses.words, Clauses.all, Clause.words, Keyword.announce]

/-- The word is one that clauses ask for. -/
def Keyword.OfClause (w : Keyword) : Prop := w ∈ [.join, .filter, .grouping, .having, .order]

instance : DecidablePred Keyword.OfClause := fun w => inferInstanceAs (Decidable (w ∈ _))

theorem Keyword.OfClause.ne {v w : Keyword} (h : w.OfClause) (hv : ¬ v.OfClause) : v ≠ w := by
  rintro rfl
  exact hv h

theorem Clause.words_ofClause (c : Clause) : ∀ w ∈ c.words, w.OfClause := by
  have hannounce : ∀ {α : Type} {w : Keyword} (items : List α), w.OfClause →
      ∀ v ∈ w.announce items, v.OfClause := by
    intro α w items hw
    cases items with
    | nil => exact List.forall_mem_nil _
    | cons => exact List.forall_mem_singleton.2 hw
  cases c with
  | order keys => exact hannounce keys (by decide)
  | grouping g => exact List.forall_mem_cons.2 ⟨by decide, hannounce _ (by decide)⟩
  | filter => exact List.forall_mem_singleton.2 (by decide)
  | joins js => exact List.forall_mem_map.2 fun _ _ => by decide

mutual

/-- A block has the words of its clauses and of those of the derived tables in it. -/
theorem Block.count_outline {w : Keyword} (hw : w.OfClause) : ∀ block : Block,
    block.outline.count w = ((block.nested.flatMap (·.clauses.all)).flatMap Clause.words).count w
  | .mk body clauses base stages aliases => by
      have hclauses : clauses.words.count w = (clauses.all.flatMap Clause.words).count w := by
        rw [clauses.words_eq, ((List.reverse_perm _).flatMap_right _).count_eq]
      rw [Block.outline, Block.nested, List.flatMap_cons, List.flatMap_append, List.count_append,
        List.count_append, List.count_cons_of_ne (hw.ne (by decide)), Base.count_outline hw base,
        hclauses, Nat.add_comm]
      rfl

theorem Base.count_outline {w : Keyword} (hw : w.OfClause) : ∀ base : Base,
    base.outline.count w = ((base.nested.flatMap (·.clauses.all)).flatMap Clause.words).count w
  | .table _ => by
      rw [Base.outline, List.count_cons_of_ne (hw.ne (by decide))]
      rfl
  | .derived block => by
      rw [Base.outline, List.count_append, List.count_cons_of_ne (hw.ne (by decide)),
        List.count_cons_of_ne (hw.ne (by decide)), Block.count_outline hw block]
      rfl
  | .strayHaving _ => rfl

end

mutual

/-- Each block is announced once. -/
theorem Block.count_select : ∀ block : Block, block.outline.count .select = block.nested.length
  | .mk body clauses base stages aliases => by
      have hclauses : clauses.words.count .select = 0 := by
        rw [clauses.words_eq, List.count_eq_zero]
        intro hmem
        obtain ⟨c, -, hc⟩ := List.mem_flatMap.1 hmem
        exact absurd (c.words_ofClause _ hc) (by decide)
      rw [Block.outline, Block.nested, List.count_append, List.count_cons_self,
        Base.count_select base, hclauses, List.length_cons, Nat.add_zero]

theorem Base.count_select : ∀ base : Base, base.outline.count .select = base.nested.length
  | .table _ => rfl
  | .derived block => by
      rw [Base.outline, List.count_append, List.count_cons_of_ne (by decide),
        List.count_cons_of_ne (by decide), Block.count_select block]
      rfl
  | .strayHaving _ => rfl

end

/-! ## Runs -/

/-- How the blocks inside each other are compiled, and to which statements. -/
inductive NestedRuns (sub : SubqueryCompiler) (scope : Scope) :
    Block → Moment → List (Block × Sql.Select) → Prop
  | table {block t μ} (run : StatementRun sub scope block μ) : block.base = .table t →
      NestedRuns sub scope block μ [(block, run.compiled.select)]
  | derived {block inner μ rest} (run : StatementRun sub scope block μ) :
      block.base = .derived inner → NestedRuns sub scope inner (run.entered.deeper 1) rest →
      NestedRuns sub scope block μ ((block, run.compiled.select) :: rest)

section

variable {sub : SubqueryCompiler} {scope : Scope} {μ ν : Moment} {block : Block}

theorem Keyword.announce_congr {α β : Type} (w : Keyword) {items : List α} {items' : List β}
    (h : items = [] ↔ items' = []) : w.announce items = w.announce items' := by
  simp only [announce, List.isEmpty_iff, h]

theorem Keyword.announce_of_length {α β : Type} (w : Keyword) {items : List α} {items' : List β}
    (h : items.length = items'.length) : w.announce items = w.announce items' :=
  w.announce_congr (by rw [← List.length_eq_zero_iff, h, List.length_eq_zero_iff])

/-- As many texts are written as nodes are built. -/
theorem Batch.length_texts {build : Build (List Expr)} (b : Batch sub build μ) :
    ∃ s, b.texts.length = (build s).1.length := by
  obtain ⟨hnodes, -, -⟩ := takes_build.1 b.built
  exact ⟨μ.session.supply, by rw [b.writes.length_eq, ← hnodes]⟩

theorem ExprTerm.length_nodesOn (term : Option ExprTerm) (row : Row) (s : Supply) :
    (ExprTerm.nodesOn scope term row s).1.length = term.toList.length := by
  cases term <;> rfl

theorem compileTable_source {t : Table} {source : Sql.Source} {row : Row}
    (h : (compileTable t).Takes μ (source, row) ν) : ∃ label, source = .table t.name label := by
  simp only [compileTable, takes_bind, takes_pure] at h
  obtain ⟨_, _, -, label, _, -, _, _, -, hresult, -⟩ := h
  exact ⟨label, (congrArg Prod.fst hresult).symm⟩

theorem compileDerived_source {inner : Compiled} {source : Sql.Source} {row : Row}
    (h : (compileDerived inner).Takes μ (source, row) ν) :
    ∃ label, source = .derived inner.select label := by
  simp only [compileDerived, takes_bind, takes_pure] at h
  obtain ⟨label, _, -, _, _, -, hresult, -⟩ := h
  exact ⟨label, (congrArg Prod.fst hresult).symm⟩

theorem Sql.Select.statements_eq (select : Sql.Select) :
    select.statements = select :: select.source.statements := by
  cases select
  rfl

theorem Sql.Select.outline_eq (select : Sql.Select) : select.outline =
    .select :: select.source.outline ++ select.joins.map (fun _ => .join) ++
      Keyword.announce .filter select.filter.toList ++ Keyword.announce .grouping select.keys ++
      Keyword.announce .having select.having.toList ++ Keyword.announce .order select.order := by
  cases select
  rfl

/-- The statement of a block has the words of the block's clauses. -/
theorem StatementRun.outline_eq (run : StatementRun sub scope block μ) :
    run.compiled.select.outline =
      .select :: run.compiled.select.source.outline ++ block.clauses.words := by
  have hjoins : run.compiled.select.joins.map (fun _ => Keyword.join) =
      (block.clauses.joins.getD []).map fun _ => .join := by
    have hlength := congrArg List.length run.joins_run.heads_eq
    rw [List.length_map, List.length_map] at hlength
    rw [List.map_const', List.map_const', hlength]
  have hfilter : Keyword.announce .filter run.compiled.select.filter.toList =
      Keyword.announce .filter block.clauses.filter.toList := by
    obtain ⟨s, hs⟩ := run.filter.length_texts
    exact Keyword.announce_of_length _ (by rw [run.filter_eq, hs, ExprTerm.length_nodesOn])
  have hhaving : Keyword.announce .having run.compiled.select.having.toList =
      Keyword.announce .having (block.clauses.grouping.bind (·.having)).toList := by
    obtain ⟨s, hs⟩ := run.having.length_texts
    exact Keyword.announce_of_length _ (by rw [run.having_eq, hs, ExprTerm.length_nodesOn])
  have horder : Keyword.announce .order run.compiled.select.order =
      Keyword.announce .order (block.clauses.order.getD []) := by
    have hlength := congrArg List.length run.directions_eq
    rw [List.length_map, List.length_map] at hlength
    exact Keyword.announce_of_length _ hlength
  have hkeys : Keyword.announce .grouping run.compiled.select.keys =
      Keyword.announce .grouping block.clauses.grouping.toList := by
    refine Keyword.announce_congr _ ?_
    rw [run.keys_eq, Option.toList_eq_nil_iff, ← List.length_eq_zero_iff, run.keys.writes.length_eq,
      List.length_eq_zero_iff]
    refine ⟨fun hnil => by_contra fun hsome => run.keys_nonempty hsome hnil, fun hnone => ?_⟩
    obtain ⟨hnodes, -, -⟩ := takes_build.1 run.keys.built
    rw [← hnodes, hnone]
    rfl
  rw [Sql.Select.outline_eq, Clauses.words, hjoins, hfilter, hkeys, hhaving, horder]
  simp only [List.append_assoc, List.cons_append]

/-- A block that is compiled is compiled with all blocks inside it, each to the statement in its
place, and the words of the statement are those of the block. -/
theorem Block.exists_nestedRuns : ∀ {block : Block} {μ ν : Moment} {compiled : Compiled},
    (block.compile sub scope).Takes μ compiled ν →
      NestedRuns sub scope block μ (block.nested.zip compiled.select.statements) ∧
        block.nested.length = compiled.select.statements.length ∧
        compiled.select.outline = block.outline
  | .mk body clauses base stages aliases, _, _, _, h => by
      obtain ⟨run, rfl, -⟩ := exists_statementRun h
      have hsource := run.source_eq
      have hbase := run.base_takes
      cases base with
      | table t =>
          obtain ⟨label, hlabel⟩ := compileTable_source hbase
          rw [run.outline_eq, Sql.Select.statements_eq, hsource, hlabel]
          exact ⟨.table run rfl, rfl, rfl⟩
      | derived inner =>
          obtain ⟨compiled, _, hinner, hderived⟩ := takes_bind.1 hbase
          obtain ⟨label, hlabel⟩ := compileDerived_source hderived
          obtain ⟨_, hblock, -⟩ := hinner.indented
          obtain ⟨hruns, hlength, houtline⟩ := exists_nestedRuns hblock
          rw [run.outline_eq, Sql.Select.statements_eq, hsource, hlabel]
          refine ⟨.derived run rfl hruns, congrArg (· + 1) hlength, ?_⟩
          rw [Sql.Source.outline, houtline]
          rfl
      | strayHaving shape => exact (takes_throw.1 hbase).elim

end

/-! ## Whole compilations -/

section

variable {d : Dialect} {scope : Scope} {session : Session} {q : Query} {c : CompiledQuery}

/-- A query that is compiled has a block, and no stray condition stands in it. -/
theorem exists_block_of_compileQuery (h : (compileQuery d scope q session).1 = .ok c) :
    ∃ block, q.normalize.block? = some block ∧ block.stray? = none := by
  have hnormal : q.normalize.Normal := (Query.loop_passes q).normal_and_length.1.rooted
  obtain ⟨block, hblock, hstray⟩ := hnormal.exists_block (Query.head_rooted q.fused)
  refine ⟨block, hblock, ?_⟩
  cases hfind : q.normalize.spine.find? Query.isStray with
  | none => exact hstray.trans hfind
  | some stray =>
      rw [compileQuery_of_stray hfind] at h
      exact absurd h (by simp)

/-- No clause is lost or written twice.  Every query is read from one statement after another, and
these come to an end.  If a query without subqueries is compiled and no name in it breaks a line,
then the clauses of its blocks, one block for each of the statements, are those on the spine of the
normal form.  Each block is compiled to a statement of its own, every clause of which is built and
written by the functions of that clause.  The words that the lines of the text start with are those
of the blocks in the order of a statement's clauses, so that each word comes as often as there are
clauses on the spine that ask for it, and a statement is announced for each time that something
other than a table is left to read from, and once more. -/
theorem compileQuery_outline (q : Query) :
    (∃! statements, q.Statements statements) ∧
    ∀ (d : Dialect) (scope : Scope) (session : Session) (c : CompiledQuery),
      q.subqueries = 0 → scope.nesting = 0 →
      (∀ name ∈ q.names ++ scope.names, OneLine name) →
      (compileQuery d scope q session).1 = .ok c →
      ∃ statements block μ compiled last,
        q.normalize.Statements statements ∧
        q.normalize.block? = some block ∧
        statements.map Query.block? = block.nested.map some ∧
        block.nested.flatMap (·.clauses.all) = q.normalize.spine.filterMap Query.clause? ∧
        (q.enter d).Takes ⟨.empty d, session⟩ q.normalize μ ∧
        q.CompilesTo d scope session compiled last ∧
        c.sql = compiled.select.render d 0 ∧
        block.nested.length = compiled.select.statements.length ∧
        NestedRuns (compileWithin 0) scope block μ
          (block.nested.zip compiled.select.statements) ∧
        Text.outline c.sql = block.outline ∧
        (∀ w : Keyword, w.OfClause → (Text.outline c.sql).count w =
          ((q.normalize.spine.filterMap Query.clause?).flatMap Clause.words).count w) ∧
        (Text.outline c.sql).count .select =
          statements.countP (fun s => s.body.peel.head ≠ .table) + 1 := by
  constructor
  · obtain ⟨statements, hstatements⟩ := q.exists_statements
    exact ⟨statements, hstatements, fun _ h => h.unique hstatements⟩
  intro d scope session c hq hs hnames hc
  obtain ⟨block, hblock, hstray⟩ := exists_block_of_compileQuery hc
  obtain ⟨statements, hstatements⟩ := q.normalize.exists_statements
  obtain ⟨hblocks, hlength⟩ := hstatements.blocks hblock hstray
  obtain ⟨compiled, last, hrun, rfl⟩ := compileQuery_iff_compilesTo.1 hc
  -- nothing is nested, so that no subquery is ever entered
  have hdepth : q.normalize.subqueries + scope.nesting = 0 := by
    rw [Query.subqueries_normalize, hq, hs]
  obtain ⟨μ, ν, hμ, hcompiled, -⟩ := Query.compilesTo_iff.1 hrun
  rw [Query.compileIn, hdepth, Query.compile_of_block hblock] at hcompiled
  obtain ⟨hruns, hnested, houtline⟩ := Block.exists_nestedRuns hcompiled
  have hclauses := Query.clauses_nested_of_block hblock hstray
  have htext : Text.outline (compiled.select.render d 0) = block.outline := by
    rw [Sql.Select.outline_render (hrun.spelled (hdepth ▸ compileWithin_zero_spells) hnames), houtline]
  refine ⟨statements, block, μ, compiled, last, hstatements, hblock, hblocks, hclauses, hμ, hrun, rfl,
    hnested, hruns, htext, fun w hw => ?_, ?_⟩
  · rw [htext, Block.count_outline hw, hclauses]
  · rw [htext, Block.count_select, ← hlength, ← List.length_map (f := Query.block?), hblocks,
      List.length_map]

/-- Sorted orders of one user, of which groups of more than one are kept; these are sorted by nothing. -/
private def sortedBeforeGrouping : Query :=
  .select
    (.orderBy
      (.having
        (.groupBy
          (.orderBy
            (.filter
              (.join (.table ⟨"Users", ["Id", "Name"]⟩)
                [.mk .inner ⟨"Orders", ["Total", "UserId"]⟩ (.named .row "Id") (.named .row "UserId")
                  (.tuple [.slot 0 .outer, .slot 0 .inner]) none])
              (.compare .eq (.named .row "Name") (.literal (.text "Ann"))))
            [.mk .descending (.named .row "Total")])
          [.named .row "UserId"] none)
        (.compare .gt .countStar (.literal (.int 1))))
      [])
    [.exprs [.field (.key .row) 0, .countStar]] none

private theorem sortedBeforeGrouping_compiles :
    (compileQuery .sqlite [] sortedBeforeGrouping {}).1.toOption.isSome := by
  decide +kernel

/-- The sorting is written in a derived table, since it comes before the grouping. -/
theorem compileQuery_outline_sortedBeforeGrouping :
    sortedBeforeGrouping.subqueries = 0 ∧ Scope.nesting [] = 0 ∧
    (∀ name ∈ sortedBeforeGrouping.names ++ Scope.names [], OneLine name) ∧
    ∃ c, (compileQuery .sqlite [] sortedBeforeGrouping {}).1 = .ok c ∧
      Text.outline c.sql = [.select, .opened, .select, .table, .join, .filter, .order, .closed,
        .grouping, .having] ∧
      (Text.outline c.sql).count .order = 1 := by
  obtain ⟨c, hc⟩ := Option.isSome_iff_exists.1 sortedBeforeGrouping_compiles
  have hnames : ∀ name ∈ sortedBeforeGrouping.names ++ Scope.names [], OneLine name := by
    decide +kernel
  have hok := Except.eq_ok_of_toOption hc
  obtain ⟨statements, block, μ, compiled, last, -, hblock, -, -, -, -, -, -, -, htext, hcount, -⟩ :=
    (compileQuery_outline sortedBeforeGrouping).2 .sqlite [] {} c rfl rfl hnames hok
  have houtline : sortedBeforeGrouping.normalize.block?.map Block.outline =
      some [.select, .opened, .select, .table, .join, .filter, .order, .closed, .grouping, .having] := by
    decide +kernel
  rw [hblock] at houtline
  refine ⟨rfl, rfl, hnames, c, hok, htext.trans (Option.some.inj houtline), ?_⟩
  rw [hcount .order (by decide)]
  decide +kernel

end

end QueryCompiler
