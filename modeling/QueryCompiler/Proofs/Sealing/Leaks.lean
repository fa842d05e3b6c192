import QueryCompiler.Compile.Select
import QueryCompiler.Proofs.Sealing.Clauses

/-! # `QueryCompiler.Proofs.Sealing.Leaks` — references into derived tables

A derived table offers its output columns, and no other node should be read through it.  But what was
registered inside it stays registered, and the row of a group keeps the row of its source within
reach; so a clause behind a grouping can name a column that the derived table does not offer, and
is then written with an alias that stands inside the derived table only.  Such a reference is a
*leak*.

A compiler without leaks forgets, behind each derived table, what was registered inside it.  A hidden
column then makes the compilation fail.  Here the two are compared: the sealed compiler never leaks,
and what the compiler writes is free of leaks exactly if the sealed compiler writes the same.
-/

namespace QueryCompiler

/-- Every statement, and every derived table in it, refers to sources that it names itself. -/
def Sql.Select.LeakFree (select : Sql.Select) : Prop :=
  ∀ s ∈ select.statements, ∀ r ∈ s.references, r.qualifier ∈ s.labels

instance (select : Sql.Select) : Decidable select.LeakFree :=
  inferInstanceAs (Decidable (∀ s ∈ select.statements, ∀ r ∈ s.references, r.qualifier ∈ s.labels))

/-! ## Sealing derived tables -/

/-- Runs a step and forgets what it registers. -/
def CompileM.forgetting {α : Type} (step : CompileM α) : CompileM α := do
  let outside := (← get).aliases
  let a ← step
  modify ({ · with aliases := outside })
  return a

theorem CompileM.forgetting_eq_ok {α : Type} {step : CompileM α} {ctx ctx' : Context}
    {s s' : Session} {a : α} :
    outcome (forgetting step) ctx s = (.ok (a, ctx'), s') ↔
      ∃ ctx₁, outcome step ctx s = (.ok (a, ctx₁), s') ∧
        { ctx₁ with aliases := ctx.aliases } = ctx' := by
  have hmodify : ∀ (f : Context → Context) (c : Context) (t : Session),
      outcome (modify f) c t = (.ok ((), f c), t) := fun _ _ _ => rfl
  constructor
  · intro h
    obtain ⟨_, _, _, hget, h⟩ := bind_eq_ok.1 h
    obtain ⟨rfl, rfl, rfl⟩ := get_eq_ok.1 hget
    obtain ⟨_, ctx₁, _, hstep, h⟩ := bind_eq_ok.1 h
    obtain ⟨_, _, _, hforget, h⟩ := bind_eq_ok.1 h
    obtain ⟨rfl, rfl, rfl⟩ := pure_eq_ok.1 h
    rw [hmodify] at hforget
    cases hforget
    exact ⟨ctx₁, hstep, rfl⟩
  · rintro ⟨ctx₁, hstep, rfl⟩
    refine bind_eq_ok.2 ⟨_, _, _, get_eq_ok.2 ⟨rfl, rfl, rfl⟩, ?_⟩
    refine bind_eq_ok.2 ⟨_, _, _, hstep, ?_⟩
    exact bind_eq_ok.2 ⟨_, _, _, hmodify _ _ _, pure_eq_ok.2 ⟨rfl, rfl, rfl⟩⟩

section

variable (subquery : SubqueryCompiler) (scope : Scope)

mutual

/-- The statement of a block whose derived tables are sealed. -/
def Block.compileSealed : Block → CompileM Compiled
  | .mk body clauses base stages aliases => do
    CompileM.report (.select ("Select(" ++ body.shape ++ ")") (← get).indent)
    let (source, row) ← base.compileSealed
    compileClauses subquery scope clauses stages aliases source row

/-- What a block reads from; of a derived table only the output columns are known behind it. -/
def Base.compileSealed : Base → CompileM (Sql.Source × Row)
  | .table t => compileTable t
  | .derived block => do
    let inner ← CompileM.forgetting (CompileM.indented 1 block.compileSealed)
    compileDerived inner
  | .strayHaving query => throw (.unsupportedShape query.kind query.shape)

end

end

/-- The statement of a query in normal form, with sealed derived tables. -/
def Query.compileSealedIn (scope : Scope) (q : Query) : CompileM Compiled :=
  match q.block? with
  | some block => block.compileSealed (compileWithin (q.subqueries + scope.nesting)) scope
  | none => throw (.unsupportedShape q.kind q.shape)

/-! ## New sources -/

section

variable {ctx : Context} (fields : List (NodeId × String))

/-- The context after a source has been registered under the next alias. -/
def Context.withSource (ctx : Context) (fields : List (NodeId × String)) : Context :=
  ctx.takeAlias.registerAll (Context.aliasName ctx.nextAlias) fields

theorem Context.nextAlias_withSource : (ctx.withSource fields).nextAlias = ctx.nextAlias + 1 := by
  rw [withSource, registerAll_eq]
  rfl

theorem Context.referenceOf_withSource (id : NodeId) :
    (ctx.withSource fields).referenceOf id =
      ((registrations (aliasName ctx.nextAlias) fields).lookup id).or (ctx.referenceOf id) :=
  referenceOf_registerAll_eq _ fields ctx.takeAlias id

theorem Context.Numbered.withSource (h : ctx.Numbered) : (ctx.withSource fields).Numbered := by
  intro id r hr
  rw [nextAlias_withSource]
  rw [referenceOf_withSource] at hr
  rcases Option.or_eq_some_iff.1 hr with hr | ⟨-, hr⟩
  · exact ⟨_, Nat.lt_succ_self _, qualifier_of_lookup hr⟩
  · obtain ⟨k, hk, hq⟩ := h id r hr
    exact ⟨k, Nat.lt_succ_of_lt hk, hq⟩

/-- Behind a new source, a context seals one that knew the numbered sources before. -/
theorem Context.Numbered.seals_withSource (h : ctx.Numbered) :
    (ctx.withSource fields).Seals ctx.nextAlias
      (({ ctx with aliases := [] } : Context).withSource fields) where
  eq := by
    rw [Context.withSource, Context.withSource, registerAll_eq, registerAll_eq]
    rfl
  read_iff id r := by
    rw [referenceOf_withSource, referenceOf_withSource]
    cases hlookup : (registrations (aliasName ctx.nextAlias) fields).lookup id with
    | some r' =>
        simp only [Option.some_or, Option.some.injEq]
        constructor
        · rintro rfl
          exact ⟨rfl, _, Nat.le_refl _, qualifier_of_lookup hlookup⟩
        · exact And.left
    | none =>
        simp only [Option.none_or]
        constructor
        · intro hr
          cases hr
        · rintro ⟨hr, k, hk, hq⟩
          obtain ⟨k', hk', hq'⟩ := h id r hr
          have heq : k = k' := aliasName_inj.1 (hq.symm.trans hq')
          omega

theorem Context.within_withSource (haliases : ctx.aliases = []) :
    (ctx.withSource fields).Within [aliasName ctx.nextAlias] := by
  intro id r hr
  rw [referenceOf_withSource] at hr
  rcases Option.or_eq_some_iff.1 hr with hr | ⟨-, hr⟩
  · exact List.mem_singleton.2 (qualifier_of_lookup hr)
  · rw [referenceOf, haliases] at hr
    cases hr

theorem Context.numbered_of_aliases_eq_nil (haliases : ctx.aliases = []) : ctx.Numbered := by
  intro id r hr
  rw [referenceOf, haliases] at hr
  cases hr

end

theorem compileTable_eq_ok {t : Table} {ctx ctx' : Context} {s s' : Session}
    {r : Sql.Source × Row} :
    CompileM.outcome (compileTable t) ctx s = (.ok (r, ctx'), s') ↔
      ∃ columns, (t.instantiate s.supply).1 = columns ∧
        r = (.table t.name (Context.aliasName ctx.nextAlias), .table t columns) ∧
        ctx' = ctx.withSource ((columns.map Expr.id).zip t.columns) ∧
        s' = { s with supply := (t.instantiate s.supply).2 } := by
  simp only [compileTable, CompileM.bind_eq_ok, CompileM.build_eq_ok, CompileM.takeAlias_eq_ok,
    CompileM.registerAll_eq_ok, CompileM.pure_eq_ok]
  constructor
  · rintro ⟨_, _, _, ⟨rfl, rfl, rfl⟩, _, _, _, ⟨rfl, rfl, rfl⟩, _, _, _, ⟨rfl, rfl⟩, rfl, rfl, rfl⟩
    exact ⟨_, rfl, rfl, rfl, rfl⟩
  · rintro ⟨_, rfl, rfl, rfl, rfl⟩
    exact ⟨_, _, _, ⟨rfl, rfl, rfl⟩, _, _, _, ⟨rfl, rfl, rfl⟩, (), _, _, ⟨rfl, rfl⟩, rfl, rfl, rfl⟩

theorem compileDerived_eq_ok {inner : Compiled} {ctx ctx' : Context} {s s' : Session}
    {r : Sql.Source × Row} :
    CompileM.outcome (compileDerived inner) ctx s = (.ok (r, ctx'), s') ↔
      r = (.derived inner.select (Context.aliasName ctx.nextAlias), inner.row) ∧
        ctx' = ctx.withSource
          ((Field.firstUses [] inner.fields).map fun f => (f.expr.id, f.name)) ∧ s' = s := by
  simp only [compileDerived, CompileM.bind_eq_ok, CompileM.takeAlias_eq_ok,
    CompileM.registerAll_eq_ok, CompileM.pure_eq_ok]
  constructor
  · rintro ⟨_, _, _, ⟨rfl, rfl, rfl⟩, _, _, _, ⟨rfl, rfl⟩, rfl, rfl, rfl⟩
    exact ⟨rfl, rfl, rfl⟩
  · rintro ⟨rfl, rfl, rfl⟩
    exact ⟨_, _, _, ⟨rfl, rfl, rfl⟩, (), _, _, ⟨rfl, rfl⟩, rfl, rfl, rfl⟩

/-! ## Without leaks the sealed compiler writes the same -/

section

variable {sub : SubqueryCompiler} {scope : Scope}

mutual

/-- From nothing registered: a statement that is free of leaks is compiled with sealed derived tables
as well, to the same. -/
theorem Block.compileSealed_of_leakFree (hs : scope.nesting = 0) : ∀ {block : Block},
    block.Obeys .subqueryFree → ∀ {ctx ctx₁ : Context} {s s₁ : Session} {c : Compiled},
      ctx.aliases = [] →
      CompileM.outcome (block.compile sub scope) ctx s = (.ok (c, ctx₁), s₁) →
        ctx₁.Numbered ∧ c.row.nesting = 0 ∧ (c.select.LeakFree → ∃ aliases,
          CompileM.outcome (block.compileSealed sub scope) ctx s =
            (.ok (c, { ctx₁ with aliases := aliases }), s₁))
  | _, .mk hclauses hbase hstages _, ctx, ctx₂, s, s₂, c, haliases, hok => by
      simp only [Block.compile, CompileM.bind_eq_ok, CompileM.get_eq_ok,
        CompileM.report_eq_ok] at hok
      obtain ⟨_, _, _, ⟨rfl, rfl, rfl⟩, _, _, _, ⟨rfl, rfl⟩, ⟨source, row⟩, ctx₁, s₁, hsource,
        hrest⟩ := hok
      obtain ⟨m, hlabel, hm, hnumbered, hrow, hseal⟩ :=
        Base.compileSealed_of_leakFree hs hbase haliases hsource
      obtain ⟨fs, labels, ⟨hfs, hlabels, hstatements, hnesting⟩, hreplay⟩ :=
        compileClauses_replays (m := m) hs hclauses hstages _ source hrow hm hrest
      refine ⟨hreplay.numbered hnumbered, hnesting, fun hfree => ?_⟩
      rw [Sql.Select.LeakFree, hstatements, List.forall_mem_cons] at hfree
      obtain ⟨hown, hinside⟩ := hfree
      have hrecent : ∀ r ∈ fs, Context.Recent m r.qualifier := by
        intro r hr
        have hmem := hown r ((hfs r).1 hr)
        rw [hlabels] at hmem
        rcases List.mem_cons.1 hmem with hq | hq
        · exact ⟨m, Nat.le_refl _, hq.trans hlabel⟩
        · exact hreplay.recent _ hq
      obtain ⟨ctx₁', hsource', hctx₁⟩ := hseal hinside
      obtain ⟨ctx₂', hrest', hctx₂⟩ := hreplay.replay ctx₁' hctx₁ hrecent
      refine ⟨ctx₂'.aliases, ?_⟩
      rw [← hctx₂.eq]
      simp only [Block.compileSealed, CompileM.bind_eq_ok, CompileM.get_eq_ok,
        CompileM.report_eq_ok]
      exact ⟨_, _, _, ⟨rfl, rfl, rfl⟩, (), _, _, ⟨rfl, rfl⟩, _, _, _, hsource', hrest'⟩

theorem Base.compileSealed_of_leakFree (hs : scope.nesting = 0) : ∀ {base : Base},
    base.Obeys .subqueryFree → ∀ {ctx ctx₁ : Context} {s s₁ : Session} {r : Sql.Source × Row},
      ctx.aliases = [] →
      CompileM.outcome (base.compile sub scope) ctx s = (.ok (r, ctx₁), s₁) →
        ∃ m, r.1.label = Context.aliasName m ∧ m ≤ ctx₁.nextAlias ∧ ctx₁.Numbered ∧
          r.2.nesting = 0 ∧
          ((∀ st ∈ r.1.statements, ∀ ref ∈ st.references, ref.qualifier ∈ st.labels) →
            ∃ ctx₁', CompileM.outcome (base.compileSealed sub scope) ctx s =
              (.ok (r, ctx₁'), s₁) ∧ ctx₁.Seals m ctx₁')
  | .table t, .table _, ctx, _, s, _, _, haliases, hok => by
      obtain ⟨columns, hcolumns, rfl, rfl, rfl⟩ := compileTable_eq_ok.1 hok
      have hnumbered : ctx.Numbered := Context.numbered_of_aliases_eq_nil haliases
      have hempty : ({ ctx with aliases := [] } : Context) = ctx := by rw [← haliases]
      refine ⟨ctx.nextAlias, rfl, ?_, hnumbered.withSource _, ?_, fun _ => ⟨_, hok, ?_⟩⟩
      · rw [Context.nextAlias_withSource]
        exact Nat.le_succ _
      · exact Nat.le_zero.1 (hcolumns ▸ Table.instantiate_nesting _ s.supply)
      · have hseals := hnumbered.seals_withSource ((columns.map Expr.id).zip t.columns)
        rwa [hempty] at hseals
  | _, .derived hblock, ctx, _, s, _, _, haliases, hok => by
      simp only [Base.compile, CompileM.bind_eq_ok, CompileM.indented_eq_ok] at hok
      obtain ⟨inner, _, s₁, ⟨ctx₁, hinner, rfl⟩, hderived⟩ := hok
      obtain ⟨rfl, rfl, rfl⟩ := compileDerived_eq_ok.1 hderived
      obtain ⟨hnumbered, hrow, hseal⟩ :=
        Block.compileSealed_of_leakFree hs hblock (by exact haliases) hinner
      have hnumbered : ({ ctx₁ with indent := ctx.indent } : Context).Numbered := hnumbered
      refine ⟨ctx₁.nextAlias, rfl, ?_, hnumbered.withSource _, hrow, fun hinside => ?_⟩
      · rw [Context.nextAlias_withSource]
        exact Nat.le_succ _
      · obtain ⟨aliases, hinner'⟩ := hseal hinside
        refine ⟨_, ?_, hnumbered.seals_withSource _⟩
        simp only [Base.compileSealed, CompileM.bind_eq_ok, CompileM.forgetting_eq_ok,
          CompileM.indented_eq_ok]
        refine ⟨inner, _, _, ⟨_, ⟨_, hinner', rfl⟩, rfl⟩, compileDerived_eq_ok.2 ⟨rfl, ?_, rfl⟩⟩
        rw [haliases]
  | _, .strayHaving, _, _, _, _, _, _, hok => (CompileM.throw_eq_ok.1 hok).elim

end

/-! ## The sealed compiler never leaks -/

mutual

theorem Block.leakFree_of_compileSealed (hs : scope.nesting = 0) : ∀ {block : Block},
    block.Obeys .subqueryFree → ∀ {ctx ctx₁ : Context} {s s₁ : Session} {c : Compiled},
      ctx.aliases = [] →
      CompileM.outcome (block.compileSealed sub scope) ctx s = (.ok (c, ctx₁), s₁) →
        c.select.LeakFree ∧ c.row.nesting = 0
  | _, .mk hclauses hbase hstages _, ctx, ctx₂, s, s₂, c, haliases, hok => by
      simp only [Block.compileSealed, CompileM.bind_eq_ok, CompileM.get_eq_ok,
        CompileM.report_eq_ok] at hok
      obtain ⟨_, _, _, ⟨rfl, rfl, rfl⟩, _, _, _, ⟨rfl, rfl⟩, ⟨source, row⟩, ctx₁, s₁, hsource,
        hrest⟩ := hok
      obtain ⟨hinside, hwithin, hrow⟩ := Base.leakFree_of_compileSealed hs hbase haliases hsource
      obtain ⟨fs, labels, ⟨hfs, hlabels, hstatements, hnesting⟩, hreplay⟩ :=
        compileClauses_replays (m := 0) hs hclauses hstages _ source hrow (Nat.zero_le _) hrest
      refine ⟨?_, hnesting⟩
      rw [Sql.Select.LeakFree, hstatements, List.forall_mem_cons]
      refine ⟨fun r hr => ?_, hinside⟩
      rw [hlabels]
      exact hreplay.refers _ hwithin r ((hfs r).2 hr)

theorem Base.leakFree_of_compileSealed (hs : scope.nesting = 0) : ∀ {base : Base},
    base.Obeys .subqueryFree → ∀ {ctx ctx₁ : Context} {s s₁ : Session} {r : Sql.Source × Row},
      ctx.aliases = [] →
      CompileM.outcome (base.compileSealed sub scope) ctx s = (.ok (r, ctx₁), s₁) →
        (∀ st ∈ r.1.statements, ∀ ref ∈ st.references, ref.qualifier ∈ st.labels) ∧
          ctx₁.Within [r.1.label] ∧ r.2.nesting = 0
  | _, .table _, _, _, s, _, _, haliases, hok => by
      obtain ⟨columns, hcolumns, rfl, rfl, rfl⟩ := compileTable_eq_ok.1 hok
      refine ⟨by simp [Sql.Source.statements], Context.within_withSource _ haliases, ?_⟩
      exact Nat.le_zero.1 (hcolumns ▸ Table.instantiate_nesting _ s.supply)
  | _, .derived hblock, ctx, _, s, _, _, haliases, hok => by
      simp only [Base.compileSealed, CompileM.bind_eq_ok, CompileM.forgetting_eq_ok,
        CompileM.indented_eq_ok] at hok
      obtain ⟨inner, _, s₁, ⟨_, ⟨ctx₁, hinner, rfl⟩, rfl⟩, hderived⟩ := hok
      obtain ⟨rfl, rfl, rfl⟩ := compileDerived_eq_ok.1 hderived
      obtain ⟨hfree, hrow⟩ :=
        Block.leakFree_of_compileSealed hs hblock (by exact haliases) hinner
      have hforgotten : ({ ctx₁ with indent := ctx.indent, aliases := ctx.aliases } :
          Context).aliases = [] := haliases
      exact ⟨hfree, Context.within_withSource _ hforgotten, hrow⟩
  | _, .strayHaving, _, _, _, _, _, _, hok => (CompileM.throw_eq_ok.1 hok).elim

end

end

/-! ## Queries -/

/-- The sealed compiler never leaks, and where the compiler comes to a statement, that is free of
leaks exactly if the sealed compiler comes to it as well. -/
theorem leakFree_iff_compileSealed (d : Dialect) (scope : Scope) (q : Query) (session : Session)
    (hs : scope.nesting = 0) (hq : q.subqueries = 0) :
    (∀ c, ((q.normalize.compileSealedIn scope).start d session).1 = .ok c → c.select.LeakFree) ∧
    ∀ c, ((q.normalize.compileIn scope).start d session).1 = .ok c →
      (c.select.LeakFree ↔ ((q.normalize.compileSealedIn scope).start d session).1 = .ok c) := by
  have hobeys := (Query.obeys_subqueryFree hq).normalize
  unfold Query.compileSealedIn Query.compileIn Query.compile
  cases hblock : q.normalize.block? with
  | none =>
      refine ⟨fun c hc => ?_, fun c hc => ?_⟩ <;> cases hc
  | some block =>
      have hfree := hobeys.block? hblock
      have hsealed : ∀ c, ((block.compileSealed (compileWithin (q.normalize.subqueries +
          scope.nesting)) scope).start d session).1 = .ok c → c.select.LeakFree := by
        intro c hc
        obtain ⟨ctx, s, hok⟩ := CompileM.start_eq_ok.1 hc
        exact (Block.leakFree_of_compileSealed hs hfree rfl hok).1
      refine ⟨hsealed, fun c hc => ⟨fun hleakFree => ?_, hsealed c⟩⟩
      obtain ⟨ctx, s, hok⟩ := CompileM.start_eq_ok.1 hc
      obtain ⟨aliases, hok'⟩ := (Block.compileSealed_of_leakFree hs hfree rfl hok).2.2 hleakFree
      exact CompileM.start_eq_ok.2 ⟨_, _, hok'⟩

/-- Customers grouped by their names, behind which a condition on a column follows. -/
private def groupedThen (column : String) : Query :=
  .filter (.groupBy (.table ⟨"customers", ["Id", "Name"]⟩) [.named .row "Name"] none)
    (.compare .eq (.named .row column) (.literal (.int 1)))

/-- A condition on the key of the groups is compiled without a leak. -/
theorem leakFree_iff_compileSealed_key :
    Scope.nesting [] = 0 ∧ (groupedThen "Name").subqueries = 0 ∧
    ∃ c, (((groupedThen "Name").normalize.compileIn []).start .generic {}).1 = .ok c ∧
      c.select.LeakFree ∧
      (((groupedThen "Name").normalize.compileSealedIn []).start .generic {}).1 = .ok c := by
  refine ⟨rfl, rfl, ?_⟩
  have hfree : ((((groupedThen "Name").normalize.compileIn []).start .generic {}).1.toOption.any
      fun c => decide c.select.LeakFree) = true := by decide +kernel
  obtain ⟨c, hc, hleakFree⟩ := (Option.any_eq_true _ _).1 hfree
  have hok := Except.eq_ok_of_toOption hc
  have hleakFree := of_decide_eq_true hleakFree
  have hiff := (leakFree_iff_compileSealed .generic [] (groupedThen "Name") {} rfl rfl).2 c hok
  exact ⟨c, hok, hleakFree, hiff.1 hleakFree⟩

/-- A condition on a column that the groups hide is compiled, with an alias that stands inside the
derived table only; with sealed derived tables the column is found to have no alias. -/
theorem not_leakFree_hiddenColumn :
    ((((groupedThen "Id").normalize.compileIn []).start .generic {}).1.toOption.any
      fun c => !decide c.select.LeakFree && c.select.references.contains ⟨"a0", "Id"⟩ &&
        c.select.labels == ["a1"]) = true ∧
    ((((groupedThen "Id").normalize.compileSealedIn []).start .generic {}).1 matches
      .error (.missingAlias "Column" _)) = true := by
  constructor <;> decide +kernel

end QueryCompiler
