import QueryCompiler.Proofs.Sealing.Replay

/-! # `QueryCompiler.Proofs.Sealing.Clauses` — the clauses of a statement read and join

Over rows without subqueries, every clause reads what its own tree refers to, and the only sources
that a statement adds to its base are the tables it joins.  The names of output columns are a case
apart: they depend on where the projected nodes are read from.  A projected node that is registered
is written as a reference, so its reference is among those that a replay has to know anyway.
-/

namespace QueryCompiler

open CompileM (Replays Replayable Refers Nothing)

variable {m : Nat} {sub : SubqueryCompiler}

/-! ## Expressions -/

theorem registeredOr_replays (id : NodeId) {own : CompileM Sql.Scalar}
    (h : Replays m (Refers Sql.Scalar.references) own) :
    Replays m (Refers Sql.Scalar.references) (registeredOr id own) := by
  intro ctx s sql ctx₁ s₁ hm hok
  rw [CompileM.outcome_registeredOr] at hok
  cases hr : ctx.referenceOf id with
  | none =>
      rw [hr] at hok
      obtain ⟨fs, labels, ha, hread⟩ := h hm hok
      refine ⟨fs, labels, ha, { hread with replay := fun ctx' hc hrecent => ?_ }⟩
      rw [CompileM.outcome_registeredOr, hc.eq_none hr]
      exact hread.replay ctx' hc hrecent
  | some r =>
      rw [hr] at hok
      cases hok
      refine ⟨[r], [], ⟨rfl, rfl⟩, Nat.le_refl _, fun _ => rfl, fun hn => hn, by simp, ?_, ?_, ?_⟩
      · intro before hw
        rw [List.append_nil]
        exact hw
      · intro before hw r' hr'
        rw [List.mem_singleton.1 hr', List.append_nil]
        exact hw id r hr
      · intro ctx' hc hrecent
        refine ⟨ctx', ?_, hc⟩
        rw [CompileM.outcome_registeredOr,
          (hc.read_iff id r).2 ⟨hr, hrecent r List.mem_cons_self⟩]

theorem compileLiteral_replays (value : Value) :
    Replays m (Refers Sql.Scalar.references) (compileLiteral value) := by
  unfold compileLiteral
  split
  · exact .pure ⟨rfl, rfl⟩
  · have hstill : Replays m (Nothing fun sql => sql.references = []) (do
        let index ← CompileM.bindValue ((← get).dialect.encode value)
        return Sql.Scalar.bound index) := Replays.still fun ctx s sql ctx₁ s₁ hok => by
      cases hok
      exact ⟨rfl, rfl, rfl, fun _ => rfl⟩
    refine hstill.mono ?_
    rintro _ _ sql ⟨rfl, rfl, hsql⟩
    exact ⟨hsql.symm, rfl⟩

theorem nesting_max_eq_zero {a b : Nat} (h : max a b = 0) : a = 0 ∧ b = 0 := by omega

theorem CompileM.Replays.compileAll : ∀ {es : List Expr},
    (∀ e ∈ es, Replays m (Refers Sql.Scalar.references) (e.compile sub)) →
      Replays m (fun fs labels sqls =>
          Refers Sql.Scalar.referencesAll fs labels sqls ∧ sqls.length = es.length)
        (Expr.compileAll sub es)
  | [], _ => .pure ⟨⟨rfl, rfl⟩, rfl⟩
  | _ :: _, h => by
      rw [List.forall_mem_cons] at h
      refine h.1.bind ?_
      rintro _ _ sql ⟨rfl, rfl⟩
      refine (CompileM.Replays.compileAll h.2).bind ?_
      rintro _ _ sqls ⟨⟨rfl, rfl⟩, hlength⟩
      exact .pure ⟨⟨by rw [List.append_nil]; rfl, rfl⟩, congrArg (· + 1) hlength⟩

/-- An expression without subqueries reads the references in its written form. -/
theorem Expr.compile_replays {e : Expr} (he : e.nesting = 0) :
    Replays m (Refers Sql.Scalar.references) (e.compile sub) := by
  induction e using Expr.form_induction with
  | refused _ hown =>
      rw [hown]
      exact registeredOr_replays _ (.throw _)
  | bound _ => exact registeredOr_replays _ (compileLiteral_replays _)
  | assembled hmake hown ih =>
      rw [hown]
      obtain ⟨_, _, ha⟩ := hmake.exists
      have hes := Expr.nestingAll_le_iff.1 (he ▸ ha.nestingAll_le)
      refine registeredOr_replays _ ((CompileM.Replays.compileAll fun o ho =>
        ih o ho (Nat.le_zero.1 (hes o ho))).bind ?_)
      rintro _ _ ts ⟨⟨rfl, rfl⟩, hlength⟩
      exact .pure ⟨by rw [List.append_nil, (hmake ts hlength).references_eq], rfl⟩
  | membership _ => exact absurd he (Nat.succ_ne_zero _)

theorem Expr.compileAll_replays {es : List Expr} (h : Expr.nestingAll es = 0) :
    Replays m (fun fs labels sqls =>
        Refers Sql.Scalar.referencesAll fs labels sqls ∧ sqls.length = es.length)
      (Expr.compileAll sub es) :=
  .compileAll fun e he => Expr.compile_replays
    (Nat.le_zero.1 (Expr.nestingAll_le_iff.1 (Nat.le_of_eq h) e he))

/-! ## Projected nodes that are registered -/

/-- A registered node is written as its reference. -/
theorem Expr.mem_references_of_registered {e : Expr} {ctx ctx₁ : Context} {s s₁ : Session}
    {sql : Sql.Scalar} {r : Reference}
    (hok : CompileM.outcome (e.compile sub) ctx s = (.ok (sql, ctx₁), s₁))
    (hr : ctx.referenceOf e.id = some r) : r ∈ sql.references := by
  obtain ⟨own, hown⟩ := Expr.exists_own sub e
  rw [hown, CompileM.outcome_registeredOr, hr] at hok
  cases hok
  exact List.mem_cons_self

theorem Expr.mem_referencesAll_of_registered : ∀ {es : List Expr} {ctx ctx₁ : Context}
    {s s₁ : Session} {sqls : List Sql.Scalar}, Expr.nestingAll es = 0 →
      CompileM.outcome (Expr.compileAll sub es) ctx s = (.ok (sqls, ctx₁), s₁) →
        ∀ e ∈ es, ∀ r, ctx.referenceOf e.id = some r → r ∈ Sql.Scalar.referencesAll sqls
  | [], _, _, _, _, _, _, _ => by simp
  | e :: es, ctx, _, s, _, _, hn, hok => by
      obtain ⟨he, hes⟩ := nesting_max_eq_zero hn
      obtain ⟨sql, ctx₁, s₁, hsql, hrest⟩ := CompileM.bind_eq_ok.1 hok
      obtain ⟨sqls, ctx₂, s₂, hsqls, hpure⟩ := CompileM.bind_eq_ok.1 hrest
      obtain ⟨rfl, -, -⟩ := CompileM.pure_eq_ok.1 hpure
      obtain ⟨_, _, ⟨rfl, rfl⟩, hread⟩ :=
        Expr.compile_replays (m := 0) he (Nat.zero_le _) hsql
      have hsame : ctx₁.referenceOf = ctx.referenceOf := by
        funext id
        rw [Context.referenceOf, hread.aliases_eq rfl, Context.referenceOf]
      intro e' he' r hr
      rcases List.mem_cons.1 he' with rfl | he'
      · exact List.mem_append_left _ (Expr.mem_references_of_registered hsql hr)
      · refine List.mem_append_right _ (Expr.mem_referencesAll_of_registered hes hsqls e' he' r ?_)
        rw [hsame]
        exact hr

/-- Names depend on where the projected nodes are read from, and on no other node. -/
theorem candidates_congr {read read' : NodeId → Option Reference} : ∀ {es : List Expr}
    (index : Nat) (given : List String), (∀ e ∈ es, read e.id = read' e.id) →
      candidates read index given es = candidates read' index given es
  | [], _, _, _ => rfl
  | e :: es, index, given, h => by
      rw [List.forall_mem_cons] at h
      rw [candidates, candidates, h.1, candidates_congr (index + 1) given.tail h.2]

theorem outputNames_congr {read read' : NodeId → Option Reference} {es : List Expr}
    (given : List String) (h : ∀ e ∈ es, read e.id = read' e.id) :
    outputNames read given es = outputNames read' given es := by
  rw [outputNames, outputNames, candidates_congr 0 given h]

/-! ## Clauses -/

namespace Sql

def Source.label : Source → String
  | .table _ label => label
  | .derived _ label => label

def Join.label : Join → String
  | .mk _ _ label _ _ => label

/-- The aliases of the sources that a statement names. -/
def Select.labels : Select → List String
  | .mk _ source joins .. => source.label :: joins.map Join.label

theorem OrderItem.referencesAll_zipWith : ∀ {sqls : List Scalar} {keys : List SortTerm},
    sqls.length = keys.length → OrderItem.referencesAll
      (List.zipWith (fun sql key => .mk sql key.direction) sqls keys) = Scalar.referencesAll sqls
  | [], _, _ => rfl
  | sql :: _, _ :: _, h => congrArg (sql.references ++ ·) (referencesAll_zipWith (Nat.succ.inj h))

theorem Output.referencesAll_zipWith : ∀ {sqls : List Scalar} {names : List String},
    sqls.length = names.length →
      Output.referencesAll (List.zipWith .mk sqls names) = Scalar.referencesAll sqls
  | [], _, _ => rfl
  | sql :: _, _ :: _, h => congrArg (sql.references ++ ·) (referencesAll_zipWith (Nat.succ.inj h))

end Sql

section

variable {scope : Scope} (hs : scope.nesting = 0)

include hs

theorem ExprTerm.evalOn_nesting_eq_zero {t : ExprTerm} (ht : t.subqueries = 0) {row : Row}
    (hr : row.nesting = 0) : Build.Returns (fun e => e.nesting = 0) (t.evalOn scope row) := by
  intro s
  have he := t.evalOn_nesting (Nat.le_of_eq hs) (Nat.le_of_eq hr) s
  rw [ht] at he
  exact Nat.le_zero.1 he

theorem ExprTerm.evalAllOn_nesting_eq_zero {ts : List ExprTerm}
    (ht : ExprTerm.subqueriesAll ts = 0) {row : Row} (hr : row.nesting = 0) :
    Build.Returns (fun es => Expr.nestingAll es = 0) (ExprTerm.evalAllOn ts scope row) := by
  intro s
  have he := ExprTerm.evalAllOn_nesting (Nat.le_of_eq hs) ts (Nat.le_of_eq hr) s
  rw [ht] at he
  exact Nat.le_zero.1 he

theorem RowTerm.evalJoined_nesting_eq_zero {t : RowTerm} (ht : t.subqueries = 0) {outer inner : Row}
    (ho : outer.nesting = 0) (hi : inner.nesting = 0) :
    Build.Returns (fun row => row.nesting = 0) (t.evalJoined scope outer inner) := by
  intro s
  have hrow := t.evalJoined_nesting (Nat.le_of_eq hs) (Nat.le_of_eq ho) (Nat.le_of_eq hi) s
  rw [ht] at hrow
  exact Nat.le_zero.1 hrow

theorem RowTerm.runStages_nesting_eq_zero {stages : List RowTerm} {row : Row}
    (hst : ∀ stage ∈ stages, stage.subqueries = 0) (hr : row.nesting = 0) :
    Build.Returns (fun row => row.nesting = 0) (RowTerm.runStages scope stages row) := by
  intro s
  have hrow := RowTerm.runStages_nesting stages (Nat.le_of_eq hs) (Nat.le_of_eq hr) s
  rw [RowTerm.subqueriesAll_eq_zero hst] at hrow
  exact Nat.le_zero.1 hrow

theorem compileJoin_replays {join : JoinTerm} (hj : join.SubqueryFree) {row : Row}
    (hr : row.nesting = 0) :
    Replays m (fun fs labels r => fs = Sql.Join.referencesAll [r.1] ∧ labels = [r.1.label] ∧
        r.2.nesting = 0)
      (compileJoin sub scope join row) := by
  obtain ⟨kind, table, outerKey, innerKey, result, aliases⟩ := join
  obtain ⟨ho, hi, hresult⟩ := hj
  have hcolumns : Build.Returns (fun columns => (Row.table table columns).nesting = 0)
      table.instantiate := fun s => Nat.le_zero.1 (table.instantiate_nesting s)
  refine (Replays.build hcolumns).bind ?_
  rintro _ _ columns ⟨rfl, rfl, hinner⟩
  refine Replays.newSource _ fun label _ => ?_
  refine (Replays.build (ExprTerm.evalOn_nesting_eq_zero hs ho hr)).bind ?_
  rintro _ _ outer ⟨rfl, rfl, houter⟩
  refine (Expr.compile_replays houter).bind ?_
  rintro _ _ outerSql ⟨rfl, rfl⟩
  refine (Replays.build (ExprTerm.evalOn_nesting_eq_zero hs hi hinner)).bind ?_
  rintro _ _ inner ⟨rfl, rfl, hinnerKey⟩
  refine (Expr.compile_replays hinnerKey).bind ?_
  rintro _ _ innerSql ⟨rfl, rfl⟩
  refine (Replays.build (RowTerm.evalJoined_nesting_eq_zero hs hresult hr hinner)).bind ?_
  rintro _ _ row ⟨rfl, rfl, hrow⟩
  exact .pure ⟨by simp [Sql.Join.referencesAll], rfl, hrow⟩

theorem compileJoins_replays : ∀ {joins : List JoinTerm} {row : Row},
    (∀ join ∈ joins, join.SubqueryFree) → row.nesting = 0 →
      Replays m (fun fs labels r => fs = Sql.Join.referencesAll r.1 ∧
          labels = r.1.map Sql.Join.label ∧ r.2.nesting = 0)
        (compileJoins sub scope joins row)
  | [], _, _, hr => .pure ⟨rfl, rfl, hr⟩
  | join :: joins, row, hj, hr => by
      rw [List.forall_mem_cons] at hj
      refine (compileJoin_replays hs hj.1 hr).bind ?_
      rintro _ _ ⟨first, row⟩ ⟨rfl, rfl, hrow⟩
      refine (compileJoins_replays hj.2 hrow).bind ?_
      rintro _ _ ⟨rest, row⟩ ⟨rfl, rfl, hrow⟩
      refine .pure ⟨?_, by simp, hrow⟩
      rw [List.append_nil, ← Sql.Join.referencesAll_cons]

theorem compileJoinClause_replays {joins : Option (List JoinTerm)} {row : Row}
    (hj : ∀ js ∈ joins, ∀ join ∈ js, join.SubqueryFree) (hr : row.nesting = 0) :
    Replays m (fun fs labels r => fs = Sql.Join.referencesAll r.1 ∧
        labels = r.1.map Sql.Join.label ∧ r.2.nesting = 0)
      (compileJoinClause sub scope joins row) := by
  match joins with
  | none => exact .pure ⟨rfl, rfl, hr⟩
  | some [] => exact .throw _
  | some (join :: joins) => exact compileJoins_replays hs (hj _ rfl) hr

theorem compileCondition_replays {predicate : Option ExprTerm}
    (hp : ExprTerm.subqueriesOption predicate = 0) {row : Row} (hr : row.nesting = 0) :
    Replays m (Refers Sql.Scalar.referencesOption) (compileCondition sub scope predicate row) := by
  cases predicate with
  | none => exact .pure ⟨rfl, rfl⟩
  | some t =>
      refine (Replays.build (ExprTerm.evalOn_nesting_eq_zero hs hp hr)).bind ?_
      rintro _ _ e ⟨rfl, rfl, he⟩
      refine (Expr.compile_replays he).bind ?_
      rintro _ _ sql ⟨rfl, rfl⟩
      exact .pure ⟨by simp [Sql.Scalar.referencesOption], rfl⟩

theorem compileGrouping_replays {grouping : Option Grouping}
    (hg : ∀ g ∈ grouping, ExprTerm.subqueriesAll g.keys = 0 ∧
      ExprTerm.subqueriesOption g.having = 0) {row : Row} (hr : row.nesting = 0) :
    Replays m (fun fs labels r =>
        Refers (fun r => Sql.Scalar.referencesAll r.1 ++ Sql.Scalar.referencesOption r.2.1)
          fs labels r ∧ r.2.2.nesting = 0)
      (compileGrouping sub scope grouping row) := by
  cases grouping with
  | none => exact .pure ⟨⟨rfl, rfl⟩, hr⟩
  | some g =>
      obtain ⟨hkeys, hhaving⟩ := hg g rfl
      refine (Replays.build (ExprTerm.evalAllOn_nesting_eq_zero hs hkeys hr)).bind ?_
      rintro _ _ keys ⟨rfl, rfl, hk⟩
      show Replays m _ (if keys.isEmpty then _ else _)
      split
      · exact .throw _
      · refine (Expr.compileAll_replays hk).bind ?_
        rintro _ _ keySql ⟨⟨rfl, rfl⟩, -⟩
        refine (compileCondition_replays hs hhaving hr).bind ?_
        rintro _ _ havingSql ⟨rfl, rfl⟩
        refine .pure ⟨⟨by simp, rfl⟩, ?_⟩
        have hkey : (Row.tuple (keys.map .expr)).nesting ≤ 0 :=
          Row.nesting_le_iff.2 (by
            rw [Row.leaves, Row.leavesAll_map_expr]
            exact Expr.nestingAll_le_iff.1 (Nat.le_of_eq hk))
        exact Nat.le_zero.1 (Nat.max_le.2 ⟨hkey, Nat.le_of_eq hr⟩)

theorem compileOrder_replays {keys : List SortTerm} (hk : ∀ key ∈ keys, key.key.subqueries = 0)
    {row : Row} (hr : row.nesting = 0) :
    Replays m (Refers Sql.OrderItem.referencesAll) (compileOrder sub scope keys row) := by
  have hbuild := (ExprTerm.evalAllOn_nesting_eq_zero hs (ExprTerm.subqueriesAll_keys_eq_zero hk) hr).and
    (ExprTerm.evalAll_length _ _)
  refine (Replays.build hbuild).bind ?_
  rintro _ _ es ⟨rfl, rfl, hes, hlength⟩
  refine (Expr.compileAll_replays hes).bind ?_
  rintro _ _ sqls ⟨⟨rfl, rfl⟩, hsqls⟩
  have hkeys : sqls.length = keys.length := hsqls.trans (hlength.trans (List.length_map _))
  exact .pure ⟨by simp [Sql.OrderItem.referencesAll_zipWith hkeys], rfl⟩

end

theorem givenNames_replays (given : Option (List String)) (width : Nat) :
    Replays m (Nothing fun _ => True) (givenNames given width) := by
  cases given with
  | none => exact .pure ⟨rfl, rfl, trivial⟩
  | some names =>
      show Replays m _ (if names.length = width then _ else _)
      split
      · exact .pure ⟨rfl, rfl, trivial⟩
      · refine (Replays.report _).bind ?_
        rintro _ _ _ ⟨rfl, rfl, -⟩
        exact .pure ⟨rfl, rfl, trivial⟩

/-- The names of the outputs are chosen again in a replay: the projected nodes that are registered
are referred to. -/
theorem outputs_replays {es : List Expr} (hes : Expr.nestingAll es = 0)
    (given : Option (List String)) :
    Replays m (Refers fun r => Sql.Output.referencesAll r.1) (do
      let sqls ← Expr.compileAll sub es
      let given ← givenNames given es.length
      let names := outputNames (← get).referenceOf given es
      return (List.zipWith Sql.Output.mk sqls names, List.zipWith Field.mk es names)) := by
  intro ctx s r ctx₁ s₁ hm hok
  simp only [CompileM.bind_eq_ok, CompileM.get_eq_ok, CompileM.pure_eq_ok] at hok
  obtain ⟨sqls, ctx₁, s₁, hsqls, names, ctx₂, s₂, hnames, _, _, _, ⟨rfl, rfl, rfl⟩, rfl, rfl,
    rfl⟩ := hok
  obtain ⟨_, _, ⟨⟨rfl, rfl⟩, hlength⟩, hread⟩ := Expr.compileAll_replays hes hm hsqls
  obtain ⟨_, _, ⟨rfl, rfl, -⟩, hread'⟩ :=
    givenNames_replays given es.length (Nat.le_trans hm hread.nextAlias_le) hnames
  have hboth := hread.trans (f := fun _ => givenNames given es.length) hread'
  rw [List.append_nil] at hboth
  have hzip : sqls.length = (outputNames ctx₂.referenceOf names es).length :=
    hlength.trans (length_outputNames ..).symm
  refine ⟨_, [], ⟨(Sql.Output.referencesAll_zipWith hzip).symm, rfl⟩,
    { hboth with replay := fun ctx' hc hrecent => ?_ }⟩
  obtain ⟨ctx₁', hsqls', hc₁⟩ := hread.replay ctx' hc hrecent
  obtain ⟨ctx₂', hnames', hc₂⟩ := hread'.replay ctx₁' hc₁ (by simp)
  refine ⟨ctx₂', ?_, hc₂⟩
  have hsame : ∀ e ∈ es, ctx₂'.referenceOf e.id = ctx₂.referenceOf e.id := by
    intro e he
    cases hr : ctx₂.referenceOf e.id with
    | none => exact hc₂.eq_none hr
    | some r =>
        have hctx : ctx.referenceOf e.id = some r := by
          rw [Context.referenceOf, ← hboth.aliases_eq rfl]
          exact hr
        have hmem := Expr.mem_referencesAll_of_registered hes hsqls e he r hctx
        exact (hc₂.read_iff _ _).2 ⟨hr, hrecent r hmem⟩
  simp only [CompileM.bind_eq_ok, CompileM.get_eq_ok, CompileM.pure_eq_ok]
  refine ⟨sqls, ctx₁', s₁, hsqls', names, ctx₂', s₂, hnames', ctx₂', _, _, ⟨rfl, rfl, rfl⟩, ?_, rfl,
    rfl⟩
  rw [outputNames_congr names hsame]

theorem compileProjection_replays (given : Option (List String)) {row : Row}
    (hr : row.nesting = 0) :
    Replays m (Refers fun r => Sql.Output.referencesAll r.1) (compileProjection sub given row) := by
  have hes : Expr.nestingAll row.flatten = 0 :=
    Nat.le_zero.1 (Expr.nestingAll_le_iff.2 fun e he =>
      Row.nesting_le_iff.1 (Nat.le_of_eq hr) e (row.flatten_subset he))
  unfold compileProjection
  dsimp only
  split
  · exact .throw _
  · exact outputs_replays hes given

/-- A statement reads what its clauses refer to, and adds to its source the tables it joins. -/
theorem compileClauses_replays {scope : Scope} (hs : scope.nesting = 0) {clauses : Clauses}
    (hc : clauses.Obeys .subqueryFree) {stages : List RowTerm}
    (hst : ∀ stage ∈ stages, stage.subqueries = 0) (aliases : Option (List String))
    (source : Sql.Source) {row : Row} (hr : row.nesting = 0) :
    Replays m (fun fs labels c => (∀ r, r ∈ fs ↔ r ∈ c.select.references) ∧
        c.select.labels = source.label :: labels ∧
        c.select.statements = c.select :: source.statements ∧ c.row.nesting = 0)
      (compileClauses sub scope clauses stages aliases source row) := by
  have hfilter : ExprTerm.subqueriesOption clauses.filter = 0 := by
    cases hf : clauses.filter with
    | none => rfl
    | some t => exact hc.filter t hf
  have horder : ∀ key ∈ clauses.order.getD [], key.key.subqueries = 0 := by
    cases ho : clauses.order with
    | none => simp
    | some keys => exact hc.order keys ho
  refine (compileJoinClause_replays hs hc.joins hr).bind ?_
  rintro _ _ ⟨joins, row⟩ ⟨rfl, rfl, hr⟩
  refine (compileCondition_replays hs hfilter hr).bind ?_
  rintro _ _ filter ⟨rfl, rfl⟩
  refine (compileGrouping_replays hs hc.grouping hr).bind ?_
  rintro _ _ ⟨keys, having, row⟩ ⟨⟨rfl, rfl⟩, hr⟩
  refine (compileOrder_replays hs horder hr).bind ?_
  rintro _ _ order ⟨rfl, rfl⟩
  refine (Replays.build (RowTerm.runStages_nesting_eq_zero hs hst hr)).bind ?_
  rintro _ _ row ⟨rfl, rfl, hrow⟩
  refine (compileProjection_replays _ hrow).bind ?_
  rintro _ _ ⟨outputs, fields⟩ ⟨rfl, rfl⟩
  refine .pure ⟨fun r => ?_, by simp [Sql.Select.labels], rfl, hrow⟩
  -- The outputs are compiled last and stand first.
  simp only [Sql.Select.references, List.mem_append, List.append_nil, List.nil_append]
  grind

end QueryCompiler
