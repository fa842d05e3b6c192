import QueryCompiler.Proofs.Layout.StrayHaving

/-! # `QueryCompiler.Proofs.Depth` — the bound on subqueries is never reached

Subqueries are compiled up to a bound on how many of them are entered one inside the other, and what
happens below it is a matter of the bound, not of the query.  It never shows.  Two compilers of
subqueries that agree below a depth agree on all that nests no deeper:

    e       nests at most n              e is compiled alike
    t on r  over a row of at most b      what t builds nests at most subqueries t + b
    block   with a scope of at most b    alike, if subqueries block + b ≤ n, and the row that it
                                         leaves nests at most subqueries block + b

So a query is compiled the same under every bound from `subqueries q + nesting Γ` on, whatever stands
at the bottom, and no compilation fails because its subqueries nest too deep.
-/

namespace QueryCompiler

open CompileM

/-! ## Agreement -/

/-- The two compile all subqueries alike that nest less deep. -/
def SubqueryCompiler.AgreesBelow (n : Nat) (sub sub' : SubqueryCompiler) : Prop :=
  ∀ (q : Query) (scope : Scope), q.subqueries + scope.nesting < n → sub q scope = sub' q scope

/-- The steps are the same, and what they return has the property. -/
structure CompileM.Agrees {α : Type} (P : α → Prop) (m m' : CompileM α) : Prop where
  eq : m = m'
  returns : ∀ ⦃ctx s a ctx' s'⦄, outcome m ctx s = (.ok (a, ctx'), s') → P a

namespace CompileM.Agrees

variable {α β : Type} {P : α → Prop} {Q : β → Prop}

theorem of_eq {m m' : CompileM α} (h : m = m') : Agrees (fun _ => True) m m' :=
  ⟨h, fun _ _ _ _ _ _ => trivial⟩

theorem pure {a : α} (h : P a) : Agrees P (pure a) (pure a) where
  eq := rfl
  returns _ _ _ _ _ hok := (pure_eq_ok.1 hok).1 ▸ h

theorem throw (e : CompileError) : Agrees P (throw e) (throw e) where
  eq := rfl
  returns _ _ _ _ _ hok := (throw_eq_ok.1 hok).elim

theorem bind {m m' : CompileM α} {f f' : α → CompileM β} (h : Agrees P m m')
    (hf : ∀ a, P a → Agrees Q (f a) (f' a)) : Agrees Q (m >>= f) (m' >>= f') := by
  obtain ⟨rfl, hm⟩ := h
  refine ⟨ext fun ctx s => outcome_bind_congr_right fun a ctx' s' hok => ?_, ?_⟩
  · rw [(hf a (hm hok)).eq]
  · intro ctx s b ctx' s' hok
    obtain ⟨a, ctx₁, s₁, h₁, h₂⟩ := bind_eq_ok.1 hok
    exact (hf a (hm h₁)).returns h₂

theorem build {b : Build α} (h : b.Returns P) : Agrees P (build b) (build b) where
  eq := rfl
  returns _ _ _ _ _ hok := (build_eq_ok.1 hok).1 ▸ h _

theorem indented {m m' : CompileM α} (levels : Nat) (h : Agrees P m m') :
    Agrees P (indented levels m) (indented levels m') := by
  obtain ⟨rfl, hm⟩ := h
  refine ⟨rfl, fun ctx s a ctx' s' hok => ?_⟩
  obtain ⟨ctx₁, hinner, -⟩ := indented_eq_ok.1 hok
  exact hm hinner

theorem normalize (q : Query) :
    Agrees (fun normal => normal = q.normalize) (normalize q) (normalize q) := by
  refine ⟨rfl, fun ctx s a ctx' s' hok => ?_⟩
  obtain ⟨trace, hn⟩ := outcome_normalize q ctx s
  rw [hn] at hok
  cases hok
  rfl

end CompileM.Agrees

open CompileM (Agrees)

section

variable {n : Nat} {sub sub' : SubqueryCompiler} (h : sub.AgreesBelow n sub')

include h

/-! ## Expressions -/

omit h in
theorem Expr.compileAll_congr : ∀ {es : List Expr},
    (∀ e ∈ es, e.compile sub = e.compile sub') →
      Expr.compileAll sub es = Expr.compileAll sub' es
  | [], _ => rfl
  | _ :: _, he => by
      rw [List.forall_mem_cons] at he
      rw [Expr.compileAll, Expr.compileAll, he.1, compileAll_congr he.2]

/-- An expression is compiled alike if all its subqueries are. -/
theorem Expr.compile_eq_of_nesting {e : Expr} (he : e.nesting ≤ n) :
    e.compile sub = e.compile sub' := by
  induction e using Expr.form_induction with
  | refused _ hown => rw [hown, hown]
  | bound _ => rfl
  | assembled hmake hown ih =>
      obtain ⟨_, _, ha⟩ := hmake.exists
      have hes := Expr.nestingAll_le_iff.1 (Nat.le_trans ha.nestingAll_le he)
      rw [hown, hown, Expr.compileAll_congr fun o ho => ih o ho (hes o ho)]
  | @membership id needle query scope ih =>
      have hmax : max needle.nesting (query.subqueries + Scope.nesting scope) + 1 ≤ n := he
      have hneedle : needle.nesting ≤ n := by omega
      have hquery : query.normalize.subqueries + Scope.nesting scope < n := by
        rw [Query.subqueries_normalize]
        omega
      refine congrArg (registeredOr id) (Agrees.bind (Q := fun _ => True)
        (.of_eq (ih hneedle)) fun _ _ => ?_).eq
      refine (Agrees.normalize query).bind ?_
      rintro _ rfl
      exact (Agrees.of_eq (by rw [h _ _ hquery])).bind fun _ _ => .of_eq rfl

theorem Expr.compileAll_eq_of_nesting {es : List Expr} (hes : Expr.nestingAll es ≤ n) :
    Expr.compileAll sub es = Expr.compileAll sub' es :=
  Expr.compileAll_congr fun e he => e.compile_eq_of_nesting h (Expr.nestingAll_le_iff.1 hes e he)

/-! ## Clauses -/

omit h in
theorem compileTable_agrees (t : Table) (b : Nat) :
    Agrees (fun r => r.2.nesting ≤ b) (compileTable t) (compileTable t) := by
  refine (Agrees.build (t.instantiate_nesting (n := b))).bind fun columns hcolumns => ?_
  exact (Agrees.of_eq rfl).bind fun _ _ => (Agrees.of_eq rfl).bind fun _ _ => .pure hcolumns

theorem compileJoin_agrees {kind : JoinKind} {table : Table} {outerKey innerKey : ExprTerm}
    {result : RowTerm} {aliases : Option (List String)} {scope : Scope} {row : Row} {b : Nat}
    (hs : scope.nesting ≤ b) (hr : row.nesting ≤ b) (houter : outerKey.subqueries + b ≤ n)
    (hinner : innerKey.subqueries + b ≤ n) :
    Agrees (fun r => r.2.nesting ≤ result.subqueries + b)
      (compileJoin sub scope (.mk kind table outerKey innerKey result aliases) row)
      (compileJoin sub' scope (.mk kind table outerKey innerKey result aliases) row) := by
  refine (Agrees.build (table.instantiate_nesting (n := b))).bind fun columns hcolumns => ?_
  refine (Agrees.of_eq rfl).bind fun _ _ => (Agrees.of_eq rfl).bind fun _ _ => ?_
  refine (Agrees.build (outerKey.evalOn_nesting hs hr)).bind fun outer hle => ?_
  refine (Agrees.of_eq (outer.compile_eq_of_nesting h (Nat.le_trans hle houter))).bind fun _ _ => ?_
  refine (Agrees.build (innerKey.evalOn_nesting hs hcolumns)).bind fun inner hle => ?_
  refine (Agrees.of_eq (inner.compile_eq_of_nesting h (Nat.le_trans hle hinner))).bind fun _ _ => ?_
  exact (Agrees.build (result.evalJoined_nesting hs hr hcolumns)).bind fun _ hrow => .pure hrow

theorem compileJoins_agrees {scope : Scope} : ∀ (joins : List JoinTerm) {row : Row} {b : Nat},
    scope.nesting ≤ b → row.nesting ≤ b → JoinTerm.subqueriesAll joins + b ≤ n →
      Agrees (fun r => r.2.nesting ≤ JoinTerm.subqueriesAll joins + b)
        (compileJoins sub scope joins row) (compileJoins sub' scope joins row)
  | [], _, _, _, hr, _ => .pure (Nat.le_add_left_of_le hr)
  | .mk kind table outerKey innerKey result aliases :: joins, row, b, hs, hr, hn => by
      simp only [JoinTerm.subqueriesAll] at hn ⊢
      refine (compileJoin_agrees h hs hr (by omega) (by omega)).bind fun r hrow => ?_
      have hrest := compileJoins_agrees joins (Nat.le_add_left_of_le hs) hrow (by omega)
      exact hrest.bind fun r hrow => .pure (Nat.le_trans hrow (by omega))

theorem compileJoinClause_agrees {scope : Scope} {joins : Option (List JoinTerm)} {row : Row}
    {b : Nat} (hs : scope.nesting ≤ b) (hr : row.nesting ≤ b)
    (hn : JoinTerm.subqueriesAll (joins.getD []) + b ≤ n) :
    Agrees (fun r => r.2.nesting ≤ JoinTerm.subqueriesAll (joins.getD []) + b)
      (compileJoinClause sub scope joins row) (compileJoinClause sub' scope joins row) := by
  rcases joins with - | - | ⟨join, joins⟩
  · exact .pure (Nat.le_add_left_of_le hr)
  · exact .throw _
  · exact compileJoins_agrees h (join :: joins) hs hr hn

theorem compileCondition_agrees {scope : Scope} {predicate : Option ExprTerm} {row : Row} {b : Nat}
    (hs : scope.nesting ≤ b) (hr : row.nesting ≤ b)
    (hn : ExprTerm.subqueriesOption predicate + b ≤ n) :
    compileCondition sub scope predicate row = compileCondition sub' scope predicate row := by
  cases predicate with
  | none => rfl
  | some t =>
      refine (Agrees.bind (Q := fun _ => True) (.build (t.evalOn_nesting hs hr)) fun e he => ?_).eq
      exact (Agrees.of_eq (e.compile_eq_of_nesting h (Nat.le_trans he hn))).bind fun _ _ =>
        .of_eq rfl

/-- The number of subqueries in a grouping and the condition on its groups. -/
def Grouping.subqueries (grouping : Grouping) : Nat :=
  ExprTerm.subqueriesAll grouping.keys + ExprTerm.subqueriesOption grouping.having

omit h in
theorem Row.nestingAll_map_expr : ∀ es : List Expr,
    Row.nestingAll (es.map .expr) = Expr.nestingAll es
  | [] => rfl
  | e :: es => congrArg (max e.nesting) (nestingAll_map_expr es)

theorem compileGrouping_agrees {scope : Scope} {grouping : Option Grouping} {row : Row} {b : Nat}
    (hs : scope.nesting ≤ b) (hr : row.nesting ≤ b)
    (hn : grouping.elim 0 Grouping.subqueries + b ≤ n) :
    Agrees (fun r => r.2.2.nesting ≤ grouping.elim 0 Grouping.subqueries + b)
      (compileGrouping sub scope grouping row) (compileGrouping sub' scope grouping row) := by
  cases grouping with
  | none => exact .pure (Nat.le_add_left_of_le hr)
  | some g =>
      simp only [Option.elim_some, Grouping.subqueries] at hn ⊢
      refine (Agrees.build (ExprTerm.evalAllOn_nesting hs g.keys hr)).bind fun keys hkeys => ?_
      show Agrees _ (if keys.isEmpty then _ else _) (if keys.isEmpty then _ else _)
      split
      · exact .throw _
      · have hsql : Expr.compileAll sub keys = Expr.compileAll sub' keys :=
          Expr.compileAll_eq_of_nesting h (by omega)
        have hhaving : compileCondition sub scope g.having row =
            compileCondition sub' scope g.having row :=
          compileCondition_agrees h hs hr (by omega)
        refine (Agrees.of_eq hsql).bind fun _ _ => (Agrees.of_eq hhaving).bind fun _ _ => .pure ?_
        simp only [Row.nesting, Row.nestingAll_map_expr]
        omega

omit h in
theorem SortTerm.subqueriesAll_eq (keys : List SortTerm) :
    ExprTerm.subqueriesAll (keys.map (·.key)) = SortTerm.subqueriesAll keys := by
  induction keys with
  | nil => rfl
  | cons sort keys ih =>
      obtain ⟨direction, key⟩ := sort
      exact congrArg (key.subqueries + ·) ih

theorem compileOrder_agrees {scope : Scope} {keys : List SortTerm} {row : Row} {b : Nat}
    (hs : scope.nesting ≤ b) (hr : row.nesting ≤ b) (hn : SortTerm.subqueriesAll keys + b ≤ n) :
    compileOrder sub scope keys row = compileOrder sub' scope keys row := by
  rw [← SortTerm.subqueriesAll_eq] at hn
  refine (Agrees.bind (Q := fun _ => True) (.build (ExprTerm.evalAllOn_nesting hs _ hr))
    fun es hes => ?_).eq
  exact (Agrees.of_eq (Expr.compileAll_eq_of_nesting h (Nat.le_trans hes hn))).bind fun _ _ =>
    .of_eq rfl

theorem compileProjection_agrees {given : Option (List String)} {row : Row} (hr : row.nesting ≤ n) :
    compileProjection sub given row = compileProjection sub' given row := by
  have hes : Expr.nestingAll row.flatten ≤ n := Expr.nestingAll_le_iff.2 fun e he =>
    Row.nesting_le_iff.1 hr e (row.flatten_subset he)
  rw [compileProjection, compileProjection, Expr.compileAll_eq_of_nesting h hes]

def Clauses.subqueries (clauses : Clauses) : Nat :=
  JoinTerm.subqueriesAll (clauses.joins.getD []) + ExprTerm.subqueriesOption clauses.filter +
    clauses.grouping.elim 0 Grouping.subqueries + SortTerm.subqueriesAll (clauses.order.getD [])

theorem compileClauses_agrees {scope : Scope} {row : Row} {b : Nat} (clauses : Clauses)
    (stages : List RowTerm) (aliases : Option (List String)) (source : Sql.Source)
    (hs : scope.nesting ≤ b) (hr : row.nesting ≤ b)
    (hn : clauses.subqueries + RowTerm.subqueriesAll stages + b ≤ n) :
    Agrees (fun c => c.row.nesting ≤ clauses.subqueries + RowTerm.subqueriesAll stages + b)
      (compileClauses sub scope clauses stages aliases source row)
      (compileClauses sub' scope clauses stages aliases source row) := by
  unfold Clauses.subqueries at hn ⊢
  refine (compileJoinClause_agrees h hs hr (by omega)).bind fun (joins, row) hr => ?_
  have hs : scope.nesting ≤ JoinTerm.subqueriesAll (clauses.joins.getD []) + b := by omega
  refine (Agrees.of_eq (compileCondition_agrees h hs hr (by omega))).bind fun _ _ => ?_
  refine (compileGrouping_agrees h hs hr (by omega)).bind fun (keys, having, row) hr => ?_
  have hs := Nat.le_trans hs (Nat.le_add_left _ (clauses.grouping.elim 0 Grouping.subqueries))
  refine (Agrees.of_eq (compileOrder_agrees h hs hr (by omega))).bind fun _ _ => ?_
  refine (Agrees.build (RowTerm.runStages_nesting stages hs hr)).bind fun row hr => ?_
  refine (Agrees.of_eq (compileProjection_agrees h (by omega))).bind fun _ _ => .pure ?_
  exact Nat.le_trans hr (by omega)

end

/-! ## Blocks -/

mutual

def Block.subqueries : Block → Nat
  | .mk _ clauses base stages _ =>
    base.subqueries + clauses.subqueries + RowTerm.subqueriesAll stages

def Base.subqueries : Base → Nat
  | .table _ => 0
  | .derived block => block.subqueries
  | .strayHaving _ => 0

end

section

variable {n b : Nat} {sub sub' : SubqueryCompiler} {scope : Scope}

mutual

/-- A block is compiled alike, and its row nests no deeper than its clauses allow. -/
theorem Block.compile_agrees (h : sub.AgreesBelow n sub') (hs : scope.nesting ≤ b) :
    ∀ block : Block, block.subqueries + b ≤ n →
      Agrees (fun c => c.row.nesting ≤ block.subqueries + b) (block.compile sub scope)
        (block.compile sub' scope)
  | .mk body clauses base stages aliases, hn => by
      simp only [Block.subqueries] at hn ⊢
      refine (Agrees.of_eq rfl).bind fun _ _ => (Agrees.of_eq rfl).bind fun _ _ => ?_
      refine (Base.compile_agrees h hs base (by omega)).bind fun (source, row) hr => ?_
      have hclauses := compileClauses_agrees h clauses stages aliases source
        (Nat.le_add_left_of_le hs) hr (by omega)
      exact ⟨hclauses.eq, fun _ _ _ _ _ hok => Nat.le_trans (hclauses.returns hok) (by omega)⟩

theorem Base.compile_agrees (h : sub.AgreesBelow n sub') (hs : scope.nesting ≤ b) :
    ∀ base : Base, base.subqueries + b ≤ n →
      Agrees (fun r => r.2.nesting ≤ base.subqueries + b) (base.compile sub scope)
        (base.compile sub' scope)
  | .table t, _ => compileTable_agrees t _
  | .derived block, hn => by
      refine ((Block.compile_agrees h hs block hn).indented 1).bind fun inner hr => ?_
      exact (Agrees.of_eq rfl).bind fun _ _ => (Agrees.of_eq rfl).bind fun _ _ => .pure hr
  | .strayHaving _, _ => .throw _

end

namespace Query

def laidOutSubqueries (content : Clauses × Base) : Nat :=
  content.2.subqueries + content.1.subqueries

theorem laidOutSubqueries_statement (q : Query) (content : Clauses × Base) (stages : List RowTerm)
    (aliases : Option (List String)) :
    laidOutSubqueries ({}, .derived (.mk q content.1 content.2 stages aliases)) =
      laidOutSubqueries content + RowTerm.subqueriesAll stages := rfl

theorem laidOutSubqueries_fit (here there : Place) (q : Query) (content : Clauses × Base) :
    laidOutSubqueries (fit here there q content) = laidOutSubqueries content := by
  unfold fit
  split
  · rfl
  · exact laidOutSubqueries_statement q content [] none

/-- No subquery is written twice when a query is laid out. -/
theorem laidOutSubqueries_layout : ∀ (q : Query) (here : Place),
    laidOutSubqueries (q.layout here) ≤ q.subqueries
  | .table _, _ => Nat.le_refl _
  | .having _ _, _ => Nat.zero_le _
  | .select source stages _, _ =>
      Nat.add_le_add_right (source.laidOutSubqueries_layout .order) (RowTerm.subqueriesAll stages)
  | .derived inner, here => by
      have ih := inner.laidOutSubqueries_layout .order
      by_cases hinner : inner.head = .select
      · rw [layout_derived_of_select hinner here .order]
        exact ih
      · rw [layout_derived hinner here]
        exact ih
  | .orderBy source keys, here => by
      have ih := source.laidOutSubqueries_layout .grouping
      refine Nat.le_trans (Nat.le_of_eq (laidOutSubqueries_fit here .order _ _)) ?_
      simp only [laidOutSubqueries, Clauses.subqueries, Option.getD_some, Query.subqueries] at ih ⊢
      omega
  | .groupBy source keys condition, here => by
      have ih := source.laidOutSubqueries_layout .filter
      refine Nat.le_trans (Nat.le_of_eq (laidOutSubqueries_fit here .grouping _ _)) ?_
      simp only [laidOutSubqueries, Clauses.subqueries, Option.elim_some, Grouping.subqueries,
        Query.subqueries] at ih ⊢
      omega
  | .filter source predicate, here => by
      have ih := source.laidOutSubqueries_layout .joins
      refine Nat.le_trans (Nat.le_of_eq (laidOutSubqueries_fit here .filter _ _)) ?_
      simp only [laidOutSubqueries, Clauses.subqueries, ExprTerm.subqueriesOption,
        Query.subqueries] at ih ⊢
      omega
  | .join source joins, here => by
      have ih := source.laidOutSubqueries_layout .base
      refine Nat.le_trans (Nat.le_of_eq (laidOutSubqueries_fit here .joins _ _)) ?_
      simp only [laidOutSubqueries, Clauses.subqueries, Option.getD_some, Query.subqueries] at ih ⊢
      omega

theorem block?_subqueries {q : Query} {block : Block} (hb : q.block? = some block) :
    block.subqueries ≤ q.subqueries := by
  cases q with
  | select source stages aliases =>
      cases hb
      have hlayout := source.laidOutSubqueries_layout .order
      simp only [laidOutSubqueries] at hlayout
      simp only [Block.subqueries, Query.subqueries]
      omega
  | _ => cases hb

/-- A query is compiled alike if it nests no deeper, together with its scope. -/
theorem compile_eq_of_nesting (h : sub.AgreesBelow n sub') {q : Query}
    (hn : q.subqueries + scope.nesting ≤ n) : q.compile sub scope = q.compile sub' scope := by
  unfold Query.compile
  cases hb : q.block? with
  | none => rfl
  | some block =>
      have hle := Query.block?_subqueries hb
      exact (block.compile_agrees h (Nat.le_refl _) (by omega)).eq

end Query

end

/-! ## Statements that change rows -/

section

variable {n : Nat} {sub sub' : SubqueryCompiler} {scope : Scope}

theorem compileTarget_agrees (t : Table) (b : Nat) :
    Agrees (fun row => row.nesting ≤ b) (compileTarget t) (compileTarget t) := by
  refine (Agrees.build (t.instantiate_nesting (n := b))).bind fun columns hcolumns => ?_
  exact (Agrees.of_eq rfl).bind fun _ _ => .pure hcolumns

theorem ExprTerm.subqueries_foldl_and : ∀ (terms : List ExprTerm) (term : ExprTerm),
    (terms.foldl (.binary .and) term).subqueries = term.subqueries + ExprTerm.subqueriesAll terms
  | [], _ => rfl
  | t :: terms, term => by
      rw [List.foldl_cons, subqueries_foldl_and terms, ExprTerm.subqueriesAll, ExprTerm.subqueries,
        Nat.add_assoc]

theorem ExprTerm.subqueriesOption_conjunction (terms : List ExprTerm) :
    ExprTerm.subqueriesOption (conjunction terms) = ExprTerm.subqueriesAll terms := by
  cases terms with
  | nil => rfl
  | cons term terms => exact ExprTerm.subqueries_foldl_and terms term

theorem compileAssignments_agrees (h : sub.AgreesBelow n sub') (t : Table) {row : Row}
    (hr : row.nesting ≤ scope.nesting) : ∀ assignments : List (String × Assigned),
      Assigned.nestingAll scope assignments ≤ n →
        compileAssignments sub scope t row assignments = compileAssignments sub' scope t row assignments
  | [], _ => rfl
  | (column, value) :: rest, hn => by
      obtain ⟨hvalue, hrest⟩ := Nat.max_le.1 hn
      have hbuild : Build.Returns (fun e => e.nesting ≤ value.nesting scope)
          (value.build scope row) := by
        cases value with
        | computed term => exact term.evalOn_nesting (Nat.le_refl _) hr
        | fixed value => exact .pure (Nat.le_refl _)
      rw [compileAssignments, compileAssignments, compileAssignments_agrees h t hr rest hrest]
      refine (Agrees.bind (Q := fun _ => True) (.of_eq rfl) fun _ _ => ?_).eq
      refine (Agrees.build hbuild).bind fun e he => ?_
      exact (Agrees.of_eq (e.compile_eq_of_nesting h (Nat.le_trans he hvalue))).bind fun _ _ =>
        .of_eq rfl

theorem Assigned.nestingAll_fixed (scope : Scope) : ∀ values : List (String × Expr),
    Assigned.nestingAll scope (values.map fun (column, value) => (column, .fixed value)) =
      Expr.nestingAll (values.map (·.2))
  | [] => rfl
  | (_, value) :: values => congrArg (max value.nesting) (nestingAll_fixed scope values)

theorem compileConjunction_agrees (h : sub.AgreesBelow n sub') {terms : List ExprTerm} {row : Row}
    (hn : ExprTerm.subqueriesAll terms + scope.nesting ≤ n) (hr : row.nesting ≤ scope.nesting) :
    compileCondition sub scope (conjunction terms) row =
      compileCondition sub' scope (conjunction terms) row := by
  refine compileCondition_agrees h (Nat.le_refl _) hr ?_
  rwa [ExprTerm.subqueriesOption_conjunction]

theorem Delete.compile_eq_of_nesting (h : sub.AgreesBelow n sub') {s : Delete}
    (hn : ExprTerm.subqueriesAll s.filters + scope.nesting ≤ n) :
    s.compile sub scope = s.compile sub' scope := by
  refine (Agrees.bind (Q := fun _ => True) (compileTarget_agrees s.table scope.nesting)
    fun row hr => ?_).eq
  exact (Agrees.of_eq (compileConjunction_agrees h hn hr)).bind fun _ _ => .of_eq rfl

theorem Update.compile_eq_of_nesting (h : sub.AgreesBelow n sub') {s : Update}
    (hassigned : Assigned.nestingAll scope s.assignments ≤ n)
    (hfilters : ExprTerm.subqueriesAll s.filters + scope.nesting ≤ n) :
    s.compile sub scope = s.compile sub' scope := by
  unfold Update.compile
  split
  · exact (Agrees.bind (P := fun _ => False) (Q := fun _ => True) (.throw _) nofun).eq
  · refine (Agrees.bind (Q := fun _ => True) (compileTarget_agrees s.table scope.nesting)
      fun row hr => ?_).eq
    have hsets := compileAssignments_agrees h s.table hr s.assignments hassigned
    refine (Agrees.of_eq hsets).bind fun _ _ => ?_
    exact (Agrees.of_eq (compileConjunction_agrees h hfilters hr)).bind fun _ _ => .of_eq rfl

theorem Insert.compile_eq_of_nesting (h : sub.AgreesBelow n sub') {s : Insert}
    (hn : Expr.nestingAll (s.values.map (·.2)) ≤ n) :
    s.compile sub scope = s.compile sub' scope := by
  rw [← Assigned.nestingAll_fixed scope] at hn
  unfold Insert.compile
  rw [compileAssignments_agrees h s.table (Nat.zero_le _) _ hn]

/-- A statement is compiled alike if it nests no deeper. -/
theorem Statement.compile_eq_of_nesting (h : sub.AgreesBelow n sub') {s : Statement}
    (hn : s.nesting scope ≤ n) : s.compile sub scope = s.compile sub' scope := by
  cases s with
  | delete s => exact Delete.compile_eq_of_nesting h hn
  | update s =>
      obtain ⟨hassigned, hfilters⟩ := Nat.max_le.1 hn
      exact Update.compile_eq_of_nesting h hassigned hfilters
  | insert s => exact Insert.compile_eq_of_nesting h hn

end

/-! ## Bounds -/

/-- Compiles subqueries that nest at most so deep, and the others as given. -/
def SubqueryCompiler.within (bottom : SubqueryCompiler) : Nat → SubqueryCompiler
  | 0 => bottom
  | depth + 1 => fun query scope => do
    let compiled ← query.compile (bottom.within depth) scope
    return compiled.select

theorem compileWithin_eq : ∀ depth : Nat, compileWithin depth =
    SubqueryCompiler.within (fun _ _ =>
      throw (.unsupportedExpression "InSubquery" "subqueries nest too deep")) depth
  | 0 => rfl
  | depth + 1 => by
      funext query scope
      rw [compileWithin, compileWithin_eq depth]
      rfl

/-- Below the smaller bound it does not matter what the other one is, nor what is below both. -/
theorem SubqueryCompiler.within_agrees (bottom bottom' : SubqueryCompiler) : ∀ {n depth depth' : Nat},
    n ≤ depth → n ≤ depth' → (bottom.within depth).AgreesBelow n (bottom'.within depth')
  | 0, _, _, _, _ => fun _ _ hlt => absurd hlt (Nat.not_lt_zero _)
  | n + 1, depth + 1, depth' + 1, hle, hle' => fun q scope hlt => by
      have ih := within_agrees bottom bottom' (Nat.le_of_succ_le_succ hle)
        (Nat.le_of_succ_le_succ hle')
      simp only [within]
      rw [Query.compile_eq_of_nesting ih (Nat.le_of_lt_succ hlt)]

variable (bottom : SubqueryCompiler) {scope : Scope} {depth : Nat}

/-- The bound that a query is compiled with suffices: with a greater one, and whatever comes below
it, the query is compiled the same. -/
theorem Query.compileIn_eq {q : Query} (h : q.subqueries + scope.nesting ≤ depth) :
    q.compileIn scope = q.compile (bottom.within depth) scope := by
  rw [Query.compileIn, compileWithin_eq]
  exact Query.compile_eq_of_nesting (SubqueryCompiler.within_agrees _ _ (Nat.le_refl _) h)
    (Nat.le_refl _)

theorem ExprTerm.compileIn_eq {t : ExprTerm} (h : t.subqueries + scope.nesting ≤ depth) :
    t.compileIn scope = CompileM.build (t.eval scope) >>= Expr.compile (bottom.within depth) := by
  rw [ExprTerm.compileIn, compileWithin_eq]
  refine (Agrees.bind (Q := fun _ => True) (.build (t.eval_nesting (Nat.le_refl _)))
    fun e he => .of_eq ?_).eq
  exact e.compile_eq_of_nesting (SubqueryCompiler.within_agrees _ _ (Nat.le_refl _) h) he

theorem Statement.compileIn_eq {s : Statement} (h : s.nesting scope ≤ depth) :
    s.compileIn scope = s.compile (bottom.within depth) scope := by
  rw [Statement.compileIn, compileWithin_eq]
  exact Statement.compile_eq_of_nesting (SubqueryCompiler.within_agrees _ _ (Nat.le_refl _) h)
    (Nat.le_refl _)

/-! ## Errors -/

/-- The error of a subquery below the bound. -/
def CompileError.tooDeep : CompileError :=
  .unsupportedExpression "InSubquery" "subqueries nest too deep"

theorem CompileError.ofClauses_ne_tooDeep : CompileError.OfClauses (· ≠ .tooDeep) where
  emptyList := by simp [tooDeep]
  columns width h := by
    have hreason := (CompileError.unsupportedExpression.inj h).2
    have htake := congrArg (fun reason : String => reason.toList.take 8) hreason
    simp [String.toList_append] at htake
  missingAlias _ _ := nofun
  unknownColumn _ := nofun
  emptyJoinChain := nofun
  grouping := nofun
  projection := nofun

open CompileM (FailsWith)

section

variable {P : CompileError → Prop} {sub : SubqueryCompiler} (hP : CompileError.OfClauses P)
  (hsub : sub.FailsWith P) (scope : Scope)

include hP hsub

theorem Query.compile_failsWith (hshape : ∀ node shape, P (.unsupportedShape node shape))
    (q : Query) : FailsWith P (q.compile sub scope) := by
  unfold Query.compile
  split
  · exact Block.compile_failsWith scope hP hsub _ fun _ _ => hshape _ _
  · exact .throw (hshape _ _)

theorem compileAssignments_failsWith (t : Table) (row : Row) :
    ∀ assignments : List (String × Assigned),
      FailsWith P (compileAssignments sub scope t row assignments)
  | [] => .pure _
  | (column, value) :: rest => by
      have hcolumn : FailsWith P (requireColumn t column) := by
        unfold requireColumn
        split
        · exact .pure _
        · exact .throw (hP.unknownColumn _)
      exact hcolumn.bind fun _ => (FailsWith.build _).bind fun e =>
        (e.compile_failsWith hP hsub).bind fun _ =>
          (compileAssignments_failsWith t row rest).bind fun _ => .pure _

theorem Statement.compile_failsWith (hempty : ∀ kind, P (.emptyAssignments kind)) (s : Statement) :
    FailsWith P (s.compile sub scope) := by
  have htarget : ∀ t : Table, FailsWith P (compileTarget t) := fun _ =>
    (FailsWith.build _).bind fun _ => (FailsWith.registerAll _ _).bind fun _ => .pure _
  cases s with
  | delete s =>
      exact (htarget _).bind fun _ =>
        (compileCondition_failsWith hP hsub scope _ _).bind fun _ => .pure _
  | update s =>
      simp only [Statement.compile, Update.compile]
      split
      · exact .throw_bind (hempty _) _
      · exact (htarget _).bind fun _ => (compileAssignments_failsWith hP hsub scope _ _ _).bind fun _ =>
          (compileCondition_failsWith hP hsub scope _ _).bind fun _ => .pure _
  | insert s =>
      simp only [Statement.compile, Insert.compile]
      split
      · exact .throw_bind (hempty _) _
      · exact (compileAssignments_failsWith hP hsub scope _ _ _).bind fun _ => .pure _

end

/-- Whatever has another error at the bottom has another error throughout. -/
theorem SubqueryCompiler.within_ne_tooDeep : ∀ depth : Nat,
    (SubqueryCompiler.within (fun _ _ => throw .emptyJoinChain) depth).FailsWith (· ≠ .tooDeep)
  | 0 => fun _ _ => .throw nofun
  | depth + 1 => fun q scope => by
      have hq := Query.compile_failsWith CompileError.ofClauses_ne_tooDeep (within_ne_tooDeep depth)
        scope (fun _ _ => nofun) q
      exact hq.bind fun _ => .pure _

theorem Query.compileText_ne_tooDeep (scope : Scope) (q : Query) :
    FailsWith (· ≠ .tooDeep) (q.compileText scope) := by
  have hcompile : ∀ normal : Query, FailsWith (· ≠ .tooDeep) (normal.compileIn scope) := by
    intro normal
    rw [Query.compileIn_eq (fun _ _ => throw .emptyJoinChain) (Nat.le_refl _)]
    exact Query.compile_failsWith CompileError.ofClauses_ne_tooDeep
      (SubqueryCompiler.within_ne_tooDeep _) scope (fun _ _ => nofun) normal
  exact FailsWith.get.bind fun _ => (FailsWith.report _).bind fun _ =>
    (FailsWith.normalize q).bind fun normal => (hcompile normal).bind fun _ =>
      FailsWith.get.bind fun _ => (FailsWith.report _).bind fun _ => .pure _

/-- No query fails because its subqueries nest too deep. -/
theorem compileQuery_ne_tooDeep (d : Dialect) (scope : Scope) (q : Query) (session : Session) :
    (compileQuery d scope q session).1 ≠ .error .tooDeep :=
  fun h => (q.compileText_ne_tooDeep scope).start h rfl

theorem compileScalar_ne_tooDeep (d : Dialect) (scope : Scope) (q : ScalarQuery) (session : Session) :
    (compileScalar d scope q session).1 ≠ .error .tooDeep := by
  have htext : FailsWith (· ≠ .tooDeep) (q.compileText scope) :=
    FailsWith.get.bind fun _ => (FailsWith.report _).bind fun _ =>
      q.toQuery.compileText_ne_tooDeep scope
  exact fun h => htext.start h rfl

/-- No statement that changes rows fails because its subqueries nest too deep. -/
theorem compileStatement_ne_tooDeep (d : Dialect) (scope : Scope) (st : Statement)
    (session : Session) : (compileStatement d scope st session).1 ≠ .error .tooDeep := by
  have hcompile : FailsWith (· ≠ .tooDeep) (st.compileIn scope) := by
    rw [Statement.compileIn_eq (fun _ _ => throw .emptyJoinChain) (Nat.le_refl _)]
    exact Statement.compile_failsWith CompileError.ofClauses_ne_tooDeep
      (SubqueryCompiler.within_ne_tooDeep _) scope (fun _ => nofun) st
  have htext : FailsWith (· ≠ .tooDeep) (st.compileText scope) :=
    FailsWith.get.bind fun _ => (FailsWith.report _).bind fun _ => hcompile.bind fun _ =>
      FailsWith.get.bind fun _ => (FailsWith.report _).bind fun _ => .pure _
  exact fun h => htext.start h rfl

end QueryCompiler
