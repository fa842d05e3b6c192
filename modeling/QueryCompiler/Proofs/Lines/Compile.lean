import QueryCompiler.Proofs.Lines.Names
import QueryCompiler.Proofs.Lines.Render
import QueryCompiler.Proofs.Visits

/-! # `QueryCompiler.Proofs.Lines.Compile` — what is compiled is spelled as the query is

If all names of a query and within its scope are spelled in a certain way, on one line at least, so are
all names of the statement it is compiled to.  What is carried along is that the fields which nodes are
read from are spelled so; the names of outputs are put together from those and from the names of the
query.
-/

namespace QueryCompiler

open CompileM
open Text (OneLine)

variable {σ : Spelling}

/-! ## Steps -/

/-- The fields that nodes are read from are spelled so. -/
def Context.Spelled (σ : Spelling) (ctx : Context) : Prop :=
  ∀ a ∈ ctx.aliases, σ.label a.2.qualifier ∧ σ.Field a.2.field

theorem Context.Spelled.empty (σ : Spelling) (d : Dialect) : (Context.empty d).Spelled σ :=
  List.forall_mem_nil _

theorem Context.Spelled.referenceOf {ctx : Context} (h : ctx.Spelled σ) {id : NodeId} {r : Reference}
    (hr : ctx.referenceOf id = some r) : σ.label r.qualifier ∧ σ.Field r.field := by
  obtain ⟨before, after, haliases, -⟩ := List.lookup_eq_some_iff.1 hr
  exact h (id, r) (haliases ▸ by simp)

theorem Context.Spelled.registerAll {qualifier : String} (hq : σ.label qualifier) :
    ∀ (fields : List (NodeId × String)) {ctx : Context}, (∀ f ∈ fields, σ.Field f.2) →
      ctx.Spelled σ → (ctx.registerAll qualifier fields).Spelled σ
  | [], _, _, h => h
  | (id, field) :: fields, ctx, hf, h => by
      rw [List.forall_mem_cons] at hf
      have hone : (ctx.register id ⟨qualifier, field⟩).Spelled σ :=
        List.forall_mem_cons.2 ⟨⟨hq, hf.1⟩, h⟩
      exact Context.Spelled.registerAll hq fields hf.2 hone

/-- From a context that is spelled so the step leads to another one, and what it comes to has the
property. -/
def CompileM.Spells {α : Type} (σ : Spelling) (A : α → Prop) (m : CompileM α) : Prop :=
  ∀ ⦃ctx : Context⦄ ⦃s : Session⦄ ⦃a : α⦄ ⦃ctx' : Context⦄ ⦃s' : Session⦄, ctx.Spelled σ →
    outcome m ctx s = (.ok (a, ctx'), s') → ctx'.Spelled σ ∧ A a

namespace CompileM.Spells

variable {α β : Type} {A : α → Prop} {B : β → Prop}

theorem pure {a : α} (h : A a) : Spells σ A (pure a) := by
  intro ctx s _ _ _ hctx hok
  obtain ⟨rfl, rfl, -⟩ := pure_eq_ok.1 hok
  exact ⟨hctx, h⟩

theorem throw (e : CompileError) : Spells σ A (throw e : CompileM α) :=
  fun _ _ _ _ _ _ hok => (throw_eq_ok.1 hok).elim

theorem bind {m : CompileM α} {f : α → CompileM β} (hm : Spells σ A m)
    (hf : ∀ a, A a → Spells σ B (f a)) : Spells σ B (m >>= f) := by
  intro ctx s b ctx' s' hctx hok
  obtain ⟨a, ctx₁, s₁, h₁, h₂⟩ := bind_eq_ok.1 hok
  obtain ⟨hctx₁, ha⟩ := hm hctx h₁
  exact hf a ha hctx₁ h₂

/-- What a step reads from its context is spelled so. -/
theorem get : Spells σ (Context.Spelled σ) (get : CompileM Context) := by
  intro ctx s _ _ _ hctx hok
  obtain ⟨rfl, rfl, -⟩ := get_eq_ok.1 hok
  exact ⟨hctx, hctx⟩

theorem build {b : Build α} (h : b.Returns A) : Spells σ A (build b) := by
  intro ctx s _ _ _ hctx hok
  obtain ⟨rfl, rfl, -⟩ := build_eq_ok.1 hok
  exact ⟨hctx, h _⟩

theorem report (event : Event) : Spells σ (fun _ => True) (report event) := by
  intro ctx s _ _ _ hctx hok
  obtain ⟨rfl, -⟩ := report_eq_ok.1 hok
  exact ⟨hctx, trivial⟩

theorem registerAll {qualifier : String} (hq : σ.label qualifier)
    {fields : List (NodeId × String)} (hf : ∀ f ∈ fields, σ.Field f.2) :
    Spells σ (fun _ => True) (registerAll qualifier fields) := by
  intro ctx s _ _ _ hctx hok
  obtain ⟨rfl, -⟩ := registerAll_eq_ok.1 hok
  exact ⟨hctx.registerAll hq _ hf, trivial⟩

theorem takeAlias : Spells σ σ.label takeAlias := by
  intro ctx s _ _ _ hctx hok
  obtain ⟨rfl, rfl, -⟩ := takeAlias_eq_ok.1 hok
  exact ⟨hctx, σ.aliases _⟩

theorem bindValue (value : Value) : Spells σ (fun _ => True) (bindValue value) := by
  intro ctx s _ _ _ hctx hok
  obtain ⟨-, rfl, -⟩ := bindValue_eq_ok.1 hok
  exact ⟨hctx, trivial⟩

theorem indented {m : CompileM α} (levels : Nat) (hm : Spells σ A m) :
    Spells σ A (indented levels m) := by
  intro ctx s _ _ _ hctx hok
  obtain ⟨ctx₁, hinner, rfl⟩ := indented_eq_ok.1 hok
  have hdeeper : Context.Spelled σ { ctx with indent := ctx.indent + levels } := hctx
  obtain ⟨hctx₁, ha⟩ := hm hdeeper hinner
  exact ⟨hctx₁, ha⟩

theorem normalize (q : Query) : Spells σ (fun normal => normal = q.normalize) (normalize q) := by
  intro ctx s _ _ _ hctx hok
  obtain ⟨trace, hn⟩ := outcome_normalize q ctx s
  rw [hn] at hok
  cases hok
  exact ⟨hctx, rfl⟩

/-- A registered node is written as the field it is read from. -/
theorem registeredOr (id : NodeId) {own : CompileM Sql.Scalar}
    (h : Spells σ (Sql.Scalar.Spelled σ) own) :
    Spells σ (Sql.Scalar.Spelled σ) (registeredOr id own) := by
  intro ctx s _ _ _ hctx hok
  rw [outcome_registeredOr] at hok
  split at hok
  · next r hr =>
      cases hok
      exact ⟨hctx, .reference (hctx.referenceOf hr).1 (hctx.referenceOf hr).2⟩
  · exact h hctx hok

end CompileM.Spells

open CompileM (Spells)

/-! ## Expressions -/

/-- Subqueries whose names are spelled so are compiled to statements that are. -/
def SubqueryCompiler.Spells (σ : Spelling) (sub : SubqueryCompiler) : Prop :=
  ∀ {query : Query} {scope : Scope}, query.Obeys (.named σ.name) → (∀ n ∈ scope.names, σ.name n) →
    CompileM.Spells σ (fun select => σ.subqueries ∧ select.Spelled σ) (sub query scope)

section

variable {sub : SubqueryCompiler}

theorem compileLiteral_spells (value : Value) :
    Spells σ (Sql.Scalar.Spelled σ) (compileLiteral value) := by
  unfold compileLiteral
  split
  · exact .pure .null
  · exact Spells.get.bind fun _ _ => (Spells.bindValue _).bind fun _ _ => .pure .bound

theorem Expr.Assembles.namesAll_subset {e : Expr} {es : List Expr} {ts : List Sql.Scalar}
    {t : Sql.Scalar} (h : e.Assembles es ts t) : Expr.namesAll es ⊆ e.names := by
  cases h <;> simp [Expr.names, Expr.namesAll]

/-- What is made of operands that are spelled so is spelled so. -/
theorem Expr.Assembles.spelled {e : Expr} {es : List Expr} {ts : List Sql.Scalar} {t : Sql.Scalar}
    (h : e.Assembles es ts t) (he : ∀ n ∈ e.names, σ.name n) (hts : ∀ t ∈ ts, t.Spelled σ) :
    t.Spelled σ := by
  have hfield : ∀ {n}, σ.name n → σ.Field n := σ.lacks
  cases h <;> constructor <;> simp_all [Expr.names]

theorem CompileM.Spells.compileAll : ∀ {es : List Expr},
    (∀ e ∈ es, Spells σ (Sql.Scalar.Spelled σ) (e.compile sub)) →
      Spells σ (fun ts => (∀ t ∈ ts, t.Spelled σ) ∧ ts.length = es.length) (Expr.compileAll sub es)
  | [], _ => .pure ⟨List.forall_mem_nil _, rfl⟩
  | _ :: _, h => by
      rw [List.forall_mem_cons] at h
      refine h.1.bind fun _ he => (CompileM.Spells.compileAll h.2).bind fun _ hes => ?_
      exact .pure ⟨List.forall_mem_cons.2 ⟨he, hes.1⟩, congrArg (· + 1) hes.2⟩

theorem requireOneColumn_spells (select : Sql.Select) :
    Spells σ (fun _ => True) (requireOneColumn select) := by
  unfold requireOneColumn
  dsimp only
  split
  · exact .pure trivial
  · exact .throw _

theorem Expr.compile_spells (hsub : sub.Spells σ) {e : Expr} (he : ∀ n ∈ e.names, σ.name n) :
    Spells σ (Sql.Scalar.Spelled σ) (e.compile sub) := by
  induction e using Expr.form_induction with
  | refused _ hown =>
      rw [hown]
      exact .registeredOr _ (.throw _)
  | bound _ => exact .registeredOr _ (compileLiteral_spells _)
  | assembled hmake hown ih =>
      rw [hown]
      obtain ⟨_, _, ha⟩ := hmake.exists
      have hnames := Expr.forall_names_all.1 fun n hn => he n (ha.namesAll_subset hn)
      have hes := Spells.compileAll fun o ho => ih o ho (hnames o ho)
      exact .registeredOr _ (hes.bind fun ts hts => .pure ((hmake ts hts.2).spelled he hts.1))
  | @membership id needle query scope ih =>
      obtain ⟨hn, h⟩ := List.forall_mem_append.1 he
      obtain ⟨hq, hs⟩ := List.forall_mem_append.1 h
      refine .registeredOr id ((ih hn).bind fun _ hn => ?_)
      refine (Spells.normalize query).bind ?_
      rintro _ rfl
      refine ((hsub (Query.obeys_named hq).normalize hs).indented 2).bind fun select hselect => ?_
      exact (requireOneColumn_spells select).bind fun _ _ =>
        .pure (.inSelect hselect.1 hn hselect.2)

theorem Expr.compileAll_spells (hsub : sub.Spells σ) {es : List Expr}
    (h : ∀ n ∈ Expr.namesAll es, σ.name n) :
    Spells σ (fun ts => (∀ t ∈ ts, t.Spelled σ) ∧ ts.length = es.length) (Expr.compileAll sub es) :=
  .compileAll fun e he => Expr.compile_spells hsub (Expr.forall_names_all.1 h e he)

end

/-! ## Clauses -/

/-- A compiled statement that is spelled so, and what is read from it. -/
structure Compiled.Spelled (σ : Spelling) (compiled : Compiled) : Prop where
  select : compiled.select.Spelled σ
  row : ∀ n ∈ compiled.row.names, σ.name n
  fields : ∀ f ∈ compiled.fields, σ.Field f.name

/-- A source that is spelled so, and its row. -/
def SourceSpelled (σ : Spelling) (r : Sql.Source × Row) : Prop :=
  r.1.Spelled σ ∧ ∀ n ∈ r.2.names, σ.name n

theorem field_zip {ids : List NodeId} {columns : List String} (h : ∀ n ∈ columns, σ.name n) :
    ∀ f ∈ ids.zip columns, σ.Field f.2 :=
  fun _ hf => σ.lacks (h _ (List.of_mem_zip hf).2)

theorem compileTable_spells {t : Table} (h : ∀ n ∈ t.names, σ.name n) :
    Spells σ (SourceSpelled σ) (compileTable t) := by
  have ht := List.forall_mem_cons.1 h
  refine (Spells.build (Table.instantiate_names h)).bind fun columns hcolumns => ?_
  refine Spells.takeAlias.bind fun label hlabel => ?_
  refine (Spells.registerAll hlabel (field_zip ht.2)).bind fun _ _ => .pure ?_
  exact ⟨.table ht.1 hlabel, hcolumns⟩

theorem compileDerived_spells {inner : Compiled} (h : inner.Spelled σ) :
    Spells σ (SourceSpelled σ) (compileDerived inner) := by
  refine Spells.takeAlias.bind fun label hlabel => ?_
  have hfields : ∀ f ∈ (Field.firstUses [] inner.fields).map fun f => (f.expr.id, f.name),
      σ.Field f.2 := by
    intro _ hf
    obtain ⟨f, hmem, rfl⟩ := List.mem_map.1 hf
    exact h.fields f (Field.firstUses_subset [] _ hmem)
  exact (Spells.registerAll hlabel hfields).bind fun _ _ => .pure ⟨.derived h.select hlabel, h.row⟩

theorem givenNames_spells {given : Option (List String)} (h : ∀ names ∈ given, ∀ n ∈ names, σ.name n)
    (width : Nat) : Spells σ (fun names => ∀ n ∈ names, σ.name n) (givenNames given width) := by
  cases given with
  | none => exact .pure (List.forall_mem_nil _)
  | some names =>
      show Spells σ _ (if names.length = width then _ else _)
      split
      · exact .pure (h names rfl)
      · exact (Spells.report _).bind fun _ _ => .pure (List.forall_mem_nil _)

theorem Expr.columnLacks {m : Char} {e : Expr} (h : ∀ n ∈ e.names, m ∉ n.toList) :
    ColumnLacks m e := by
  cases e with
  | column id table name => exact ⟨h table (by simp [Expr.names]), h name (by simp [Expr.names])⟩
  | _ => trivial

section

variable {sub : SubqueryCompiler} {scope : Scope} (hsub : sub.Spells σ)
  (hs : ∀ n ∈ scope.names, σ.name n)

include hsub hs

theorem compileCondition_spells {predicate : Option ExprTerm}
    (hp : ∀ n ∈ ExprTerm.namesOption predicate, σ.name n) {row : Row}
    (hr : ∀ n ∈ row.names, σ.name n) :
    Spells σ (fun t => ∀ e ∈ t, Sql.Scalar.Spelled σ e) (compileCondition sub scope predicate row) := by
  cases predicate with
  | none => exact .pure (by simp)
  | some t =>
      have he := ExprTerm.eval_names t hp (Scope.forall_names_cons (.clause row) hr hs)
      exact (Spells.build he).bind fun _ he => (Expr.compile_spells hsub he).bind fun _ ht =>
        .pure (by simpa using ht)

theorem compileJoins_spells : ∀ {joins : List JoinTerm} {row : Row},
    (∀ join ∈ joins, ∀ n ∈ join.names, σ.name n) → (∀ n ∈ row.names, σ.name n) →
      Spells σ (fun r => (∀ join ∈ r.1, join.Spelled σ) ∧ ∀ n ∈ r.2.names, σ.name n)
        (compileJoins sub scope joins row)
  | [], _, _, hr => .pure ⟨List.forall_mem_nil _, hr⟩
  | .mk kind table outerKey innerKey result aliases :: joins, row, h, hr => by
      obtain ⟨hjoin, hjoins⟩ := List.forall_mem_cons.1 h
      simp only [JoinTerm.names, JoinTerm.namesAll, List.forall_mem_append] at hjoin
      obtain ⟨ht, ho, hi, hresult, -, -⟩ := hjoin
      have htable := List.forall_mem_cons.1 ht
      have hone : Spells σ (fun r => r.1.Spelled σ ∧ ∀ n ∈ r.2.names, σ.name n)
          (compileJoin sub scope (.mk kind table outerKey innerKey result aliases) row) := by
        refine (Spells.build (Table.instantiate_names ht)).bind fun columns hcolumns => ?_
        refine Spells.takeAlias.bind fun label hlabel => ?_
        refine (Spells.registerAll hlabel (field_zip htable.2)).bind fun _ _ => ?_
        have houter := ExprTerm.eval_names outerKey ho
          (Scope.forall_names_cons (.clause row) hr hs)
        have hinner := ExprTerm.eval_names innerKey hi
          (Scope.forall_names_cons (.clause (.table table columns)) hcolumns hs)
        have hpaired := RowTerm.eval_names result hresult
          (Scope.forall_names_cons (.joined row (.table table columns))
            (List.forall_mem_append.2 ⟨hr, hcolumns⟩) hs)
        refine (Spells.build houter).bind fun _ houter => ?_
        refine (Expr.compile_spells hsub houter).bind fun _ houter => ?_
        refine (Spells.build hinner).bind fun _ hinner => ?_
        refine (Expr.compile_spells hsub hinner).bind fun _ hinner => ?_
        exact (Spells.build hpaired).bind fun _ hpaired =>
          .pure ⟨.mk htable.1 hlabel houter hinner, hpaired⟩
      exact hone.bind fun _ hone => (compileJoins_spells hjoins hone.2).bind fun _ hrest =>
        .pure ⟨List.forall_mem_cons.2 ⟨hone.1, hrest.1⟩, hrest.2⟩

theorem compileJoinClause_spells {joins : Option (List JoinTerm)}
    (hj : ∀ js ∈ joins, ∀ join ∈ js, ∀ n ∈ join.names, σ.name n) {row : Row}
    (hr : ∀ n ∈ row.names, σ.name n) :
    Spells σ (fun r => (∀ join ∈ r.1, join.Spelled σ) ∧ ∀ n ∈ r.2.names, σ.name n)
      (compileJoinClause sub scope joins row) := by
  match joins with
  | none => exact .pure ⟨List.forall_mem_nil _, hr⟩
  | some [] => exact .throw _
  | some (join :: joins) => exact compileJoins_spells hsub hs (hj _ rfl) hr

theorem compileGrouping_spells {grouping : Option Grouping}
    (hg : ∀ g ∈ grouping, (ClauseRule.named σ.name).grouping g.keys g.having) {row : Row}
    (hr : ∀ n ∈ row.names, σ.name n) :
    Spells σ (fun r => (∀ key ∈ r.1, key.Spelled σ) ∧ (∀ e ∈ r.2.1, Sql.Scalar.Spelled σ e) ∧
      ∀ n ∈ r.2.2.names, σ.name n) (compileGrouping sub scope grouping row) := by
  cases grouping with
  | none => exact .pure ⟨List.forall_mem_nil _, by simp, hr⟩
  | some g =>
      obtain ⟨hkeys, hcondition⟩ := hg g rfl
      have hnodes := ExprTerm.evalAll_names g.keys hkeys
        (Scope.forall_names_cons (.clause row) hr hs)
      refine (Spells.build hnodes).bind fun keys hnames => ?_
      show Spells σ _ (if keys.isEmpty then _ else _)
      split
      · exact .throw _
      · refine (Expr.compileAll_spells hsub hnames).bind fun _ hkeys => ?_
        refine (compileCondition_spells hsub hs hcondition hr).bind fun _ hhaving => .pure ?_
        refine ⟨hkeys.1, hhaving, List.forall_mem_append.2 ⟨?_, hr⟩⟩
        refine Row.forall_names_all.2 ?_
        rw [Row.leavesAll_map_expr]
        exact Expr.forall_names_all.1 hnames

theorem compileOrder_spells {keys : List SortTerm} (hk : ∀ key ∈ keys, ∀ n ∈ key.key.names, σ.name n)
    {row : Row} (hr : ∀ n ∈ row.names, σ.name n) :
    Spells σ (fun items => ∀ item ∈ items, item.Spelled σ) (compileOrder sub scope keys row) := by
  have hnames : ∀ n ∈ ExprTerm.namesAll (keys.map (·.key)), σ.name n := by
    induction keys with
    | nil => exact List.forall_mem_nil _
    | cons key keys ih =>
        rw [List.forall_mem_cons] at hk
        exact List.forall_mem_append.2 ⟨hk.1, ih hk.2⟩
  have hnodes := ExprTerm.evalAll_names _ hnames
    (Scope.forall_names_cons (.clause row) hr hs)
  refine (Spells.build hnodes).bind fun es hes => ?_
  refine (Expr.compileAll_spells hsub hes).bind fun ts hts => .pure fun item hitem => ?_
  obtain ⟨i, hi, rfl⟩ := List.mem_iff_getElem.1 hitem
  rw [List.getElem_zipWith]
  exact .mk (hts.1 _ (List.getElem_mem _))

omit hs in
theorem compileProjection_spells {given : Option (List String)}
    (hg : ∀ names ∈ given, ∀ n ∈ names, σ.name n) {row : Row} (hr : ∀ n ∈ row.names, σ.name n) :
    Spells σ (fun r => (∀ output ∈ r.1, output.Spelled σ) ∧ ∀ f ∈ r.2, σ.Field f.name)
      (compileProjection sub given row) := by
  have hes : ∀ e ∈ row.flatten, ∀ n ∈ e.names, σ.name n :=
    fun e he => Row.forall_names.1 hr e (row.flatten_subset he)
  unfold compileProjection
  dsimp only
  split
  · exact .throw _
  · refine (Expr.compileAll_spells hsub (Expr.forall_names_all.2 hes)).bind fun ts hts => ?_
    refine (givenNames_spells hg _).bind fun given hgiven => ?_
    refine Spells.get.bind fun ctx hctx => .pure ?_
    have hnames : ∀ n ∈ outputNames ctx.referenceOf given row.flatten, σ.Field n :=
      fun n hn m hm => (σ.foreign m hm).outputNames (fun _ _ hr => (hctx.referenceOf hr).2 m hm)
        (fun n hn => σ.lacks (hgiven n hn) m hm)
        (fun e he => Expr.columnLacks fun n hn => σ.lacks (hes e he n hn) m hm) n hn
    constructor
    · intro output houtput
      obtain ⟨i, hi, rfl⟩ := List.mem_iff_getElem.1 houtput
      rw [List.getElem_zipWith]
      exact .mk (hts.1 _ (List.getElem_mem _)) (hnames _ (List.getElem_mem _))
    · intro f hf
      obtain ⟨i, hi, rfl⟩ := List.mem_iff_getElem.1 hf
      rw [List.getElem_zipWith]
      exact hnames _ (List.getElem_mem _)

end

/-! ## Blocks -/

theorem joinAliases_oneLine {joins : Option (List JoinTerm)}
    (hj : ∀ js ∈ joins, ∀ join ∈ js, ∀ n ∈ join.names, σ.name n) :
    ∀ names ∈ joinAliases joins, ∀ n ∈ names, σ.name n := by
  intro names hnames
  obtain ⟨join, hmem, haliases⟩ := List.exists_of_findSome?_eq_some hnames
  cases joins with
  | none => exact absurd (List.mem_reverse.1 hmem) List.not_mem_nil
  | some joins =>
      have hjoin := hj joins rfl join (List.mem_reverse.1 hmem)
      cases join with
      | mk kind table outerKey innerKey result aliases =>
          simp only [JoinTerm.names, JoinTerm.namesAll, List.forall_mem_append] at hjoin
          obtain ⟨-, -, -, -, ha, -⟩ := hjoin
          obtain rfl : aliases = some names := haliases
          exact ha

section

variable {sub : SubqueryCompiler} {scope : Scope}

theorem compileClauses_spells (hsub : sub.Spells σ) (hs : ∀ n ∈ scope.names, σ.name n)
    {clauses : Clauses} (hc : clauses.Obeys (.named σ.name)) {stages : List RowTerm}
    (hstages : ∀ stage ∈ stages, ∀ n ∈ stage.names, σ.name n) {aliases : Option (List String)}
    (ha : ∀ names ∈ aliases, ∀ n ∈ names, σ.name n) {source : Sql.Source} {row : Row}
    (hsource : SourceSpelled σ (source, row)) :
    Spells σ (Compiled.Spelled σ) (compileClauses sub scope clauses stages aliases source row) := by
  have hfilter : ∀ n ∈ ExprTerm.namesOption clauses.filter, σ.name n := by
    cases hf : clauses.filter with
    | none => exact List.forall_mem_nil _
    | some predicate => exact hc.filter predicate hf
  have horder : ∀ key ∈ clauses.order.getD [], ∀ n ∈ key.key.names, σ.name n := by
    cases ho : clauses.order with
    | none => exact List.forall_mem_nil _
    | some keys => exact hc.order keys ho
  have hgiven : ∀ names ∈ aliases.or (joinAliases clauses.joins), ∀ n ∈ names, σ.name n := by
    intro names hnames
    rcases Option.or_eq_some_iff.1 hnames with h | ⟨-, h⟩
    · exact ha names h
    · exact joinAliases_oneLine hc.joins names h
  refine (compileJoinClause_spells hsub hs hc.joins hsource.2).bind fun _ hjoins => ?_
  refine (compileCondition_spells hsub hs hfilter hjoins.2).bind fun _ hfilter => ?_
  refine (compileGrouping_spells hsub hs hc.grouping hjoins.2).bind fun _ hgrouping => ?_
  refine (compileOrder_spells hsub hs horder hgrouping.2.2).bind fun _ horder => ?_
  refine (Spells.build (RowTerm.runStages_names hs hstages hgrouping.2.2)).bind fun _ hrow => ?_
  refine (compileProjection_spells hsub hgiven hrow).bind fun _ hprojection => .pure ?_
  exact ⟨.mk hprojection.1 hsource.1 hjoins.1 hfilter hgrouping.1 hgrouping.2.1 horder, hrow,
    hprojection.2⟩

mutual

theorem Block.compile_spells (hsub : sub.Spells σ) (hs : ∀ n ∈ scope.names, σ.name n) :
    ∀ {block : Block}, block.Obeys (.named σ.name) →
      Spells σ (Compiled.Spelled σ) (block.compile sub scope)
  | _, .mk hc hb hstages ha => Spells.get.bind fun _ _ => (Spells.report _).bind fun _ _ =>
      (Base.compile_spells hsub hs hb).bind fun _ hsource =>
        compileClauses_spells hsub hs hc hstages ha hsource

theorem Base.compile_spells (hsub : sub.Spells σ) (hs : ∀ n ∈ scope.names, σ.name n) :
    ∀ {base : Base}, base.Obeys (.named σ.name) →
      Spells σ (SourceSpelled σ) (base.compile sub scope)
  | _, .table ht => compileTable_spells ht
  | _, .derived hb => ((Block.compile_spells hsub hs hb).indented 1).bind fun _ hinner =>
      compileDerived_spells hinner
  | _, .strayHaving => .throw _

end

theorem Query.compile_spells (hsub : sub.Spells σ) (hs : ∀ n ∈ scope.names, σ.name n) {q : Query}
    (hq : q.Obeys (.named σ.name)) : Spells σ (Compiled.Spelled σ) (q.compile sub scope) := by
  unfold Query.compile
  split
  · next block hblock => exact Block.compile_spells hsub hs (hq.block? hblock)
  · exact .throw _

end

theorem Query.CompilesTo.spelled {d : Dialect} {scope : Scope} {session : Session} {q : Query}
    {compiled : Compiled} {last : Context} (h : q.CompilesTo d scope session compiled last)
    (hsub : (compileWithin (q.normalize.subqueries + scope.nesting)).Spells σ)
    (hnames : ∀ name ∈ q.names ++ scope.names, σ.name name) : compiled.select.Spelled σ := by
  rw [List.forall_mem_append] at hnames
  obtain ⟨μ, ν, hμ, hcompiled, -⟩ := Query.compilesTo_iff.1 h
  obtain ⟨μ₀, hμ₀, hctx, -⟩ := exists_enter d q ⟨.empty d, session⟩
  obtain ⟨-, rfl⟩ := hμ.unique hμ₀
  have hspells : Spells σ (Compiled.Spelled σ) (q.normalize.compileIn scope) :=
    Query.compile_spells hsub hnames.2 (Query.obeys_named hnames.1).normalize
  exact (hspells (hctx ▸ Context.Spelled.empty σ d) hcompiled).2.select

/-! ## The two spellings -/

/-- No subquery is entered at all. -/
theorem compileWithin_zero_spells : (compileWithin 0).Spells σ := fun _ _ => .throw _

theorem compileWithin_spells (hσ : σ.subqueries) : ∀ depth : Nat, (compileWithin depth).Spells σ
  | 0 => compileWithin_zero_spells
  | depth + 1 => fun hq hs =>
      (Query.compile_spells (compileWithin_spells hσ depth) hs hq).bind fun _ hc =>
        .pure ⟨hσ, hc.select⟩

/-- All that is asked of names is that they stand on one line. -/
def Spelling.oneLined : Spelling where
  name := OneLine
  without := ['\n']
  label := OneLine
  subqueries := True
  lacks h _ hm := List.mem_singleton.1 hm ▸ h
  foreign _ hm := List.mem_singleton.1 hm ▸ Text.foreign_lineBreak
  lineBreak := List.mem_singleton_self _
  oneLine h := h
  aliases n := Text.foreign_lineBreak.aliasName n

/-- References start with an alias, and there are no subqueries. -/
def Spelling.aliased : Spelling where
  name := OneLine
  without := ['\n']
  label l := ∃ n, l = Context.aliasName n
  subqueries := False
  lacks h _ hm := List.mem_singleton.1 hm ▸ h
  foreign _ hm := List.mem_singleton.1 hm ▸ Text.foreign_lineBreak
  lineBreak := List.mem_singleton_self _
  oneLine h := by
    obtain ⟨n, rfl⟩ := h
    exact Text.foreign_lineBreak.aliasName n
  aliases n := ⟨n, rfl⟩

end QueryCompiler
