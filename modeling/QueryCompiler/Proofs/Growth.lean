import QueryCompiler.Proofs.Forms
import QueryCompiler.Proofs.Placeholders.Scan

/-! # `QueryCompiler.Proofs.Growth` — what a compilation does to its context

A compilation touches its context in five ways only: it registers a node, gives out an alias, binds a
value, and goes further in or back out.  `Context.Evolves` is the closure of these, and every step of
a compilation that succeeds leads from a context to one that it evolves to.  What holds of the five
holds of whole compilations then, by induction on `Evolves`, and no proof has to go through the
compiler again.

The first such fact is that placeholders are numbered in order, and that those that are there stay
where they are.
-/

namespace QueryCompiler

open Sql (placeholder)

/-- Nodes are registered, aliases given out, values bound and levels changed, in any order. -/
inductive Context.Evolves (ctx : Context) : Context → Prop
  | refl : Evolves ctx ctx
  | register {ctx'} (id : NodeId) (ref : Reference) : Evolves ctx ctx' →
      Evolves ctx (ctx'.register id ref)
  | takeAlias {ctx'} : Evolves ctx ctx' → Evolves ctx ctx'.takeAlias
  | bind {ctx'} (value : Value) : Evolves ctx ctx' → Evolves ctx (ctx'.bind value)
  | indent {ctx'} (level : Nat) : Evolves ctx ctx' → Evolves ctx { ctx' with indent := level }

namespace Context.Evolves

variable {ctx ctx₁ ctx₂ : Context}

theorem trans (h : ctx.Evolves ctx₁) (h' : ctx₁.Evolves ctx₂) : ctx.Evolves ctx₂ := by
  induction h' with
  | refl => exact h
  | register id ref _ ih => exact .register id ref ih
  | takeAlias _ ih => exact .takeAlias ih
  | bind value _ ih => exact .bind value ih
  | indent level _ ih => exact .indent level ih

theorem registerAll (qualifier : String) : ∀ (fields : List (NodeId × String)) (ctx : Context),
    ctx.Evolves (ctx.registerAll qualifier fields)
  | [], _ => .refl
  | (id, _) :: fields, _ => (register id _ .refl).trans (registerAll qualifier fields _)

theorem dialect_eq (h : ctx.Evolves ctx₁) : ctx₁.dialect = ctx.dialect := by
  induction h with
  | refl => rfl
  | register _ _ _ ih | takeAlias _ ih | bind _ _ ih | indent _ _ ih => exact ih

theorem nextAlias_le (h : ctx.Evolves ctx₁) : ctx.nextAlias ≤ ctx₁.nextAlias := by
  induction h with
  | refl => exact Nat.le_refl _
  | register _ _ _ ih | bind _ _ ih | indent _ _ ih => exact ih
  | takeAlias _ ih => exact Nat.le_succ_of_le ih

/-- Registrations stay, behind those that are new. -/
theorem exists_aliases_eq (h : ctx.Evolves ctx₁) : ∃ new, ctx₁.aliases = new ++ ctx.aliases := by
  induction h with
  | refl => exact ⟨[], rfl⟩
  | register id ref _ ih =>
      obtain ⟨new, hnew⟩ := ih
      exact ⟨(id, ref) :: new, congrArg ((id, ref) :: ·) hnew⟩
  | takeAlias _ ih | bind _ _ ih | indent _ _ ih => exact ih

end Context.Evolves

/-! ## Placeholders in order -/

/-- The placeholders of a dialect, numbered in order. -/
structure Context.Ordered (d : Dialect) (ctx : Context) : Prop where
  dialect_eq : ctx.dialect = d
  keys_eq : ctx.params.map (·.1) = (List.range ctx.params.length).map (placeholder d)

/-- A name that is not there yet is set at the end. -/
theorem setValue_of_notMem {name : String} (value : Value) : ∀ {params : List (String × Value)},
    name ∉ params.map (·.1) → setValue name value params = params ++ [(name, value)]
  | [], _ => rfl
  | (n, v) :: params, h => by
      rw [List.map_cons, List.mem_cons, not_or] at h
      rw [setValue, if_neg (fun he => h.1 he.symm), setValue_of_notMem value h.2, List.cons_append]

namespace Context.Ordered

variable {d : Dialect} {ctx ctx' : Context}

theorem empty (d : Dialect) : (Context.empty d).Ordered d := ⟨rfl, rfl⟩

/-- Binding a value puts its placeholder behind all others. -/
theorem params_bind (h : ctx.Ordered d) (value : Value) :
    (ctx.bind value).params = ctx.params ++ [(placeholder d ctx.params.length, value)] := by
  have hnew : placeholder d ctx.params.length ∉ ctx.params.map (·.1) := by
    rw [h.keys_eq]
    intro hmem
    obtain ⟨i, hi, he⟩ := List.mem_map.1 hmem
    have hlt := List.mem_range.1 hi
    have heq := Sql.placeholder_inj.1 he
    omega
  have hbind : (ctx.bind value).params =
      setValue (placeholder ctx.dialect ctx.params.length) value ctx.params := rfl
  rw [hbind, h.dialect_eq, setValue_of_notMem value hnew]

theorem bind (h : ctx.Ordered d) (value : Value) : (ctx.bind value).Ordered d := by
  refine ⟨h.dialect_eq, ?_⟩
  rw [h.params_bind, List.map_append, h.keys_eq, List.length_append, List.length_singleton,
    List.range_succ, List.map_append]
  rfl

/-- Placeholders stay in order, and those that are there stay where they are. -/
theorem evolves (h : ctx.Ordered d) (hctx : ctx.Evolves ctx') :
    ctx'.Ordered d ∧ ctx.params <+: ctx'.params := by
  induction hctx with
  | refl => exact ⟨h, List.prefix_rfl⟩
  | register _ _ _ ih | takeAlias _ ih | indent _ _ ih =>
      exact ⟨⟨ih.1.dialect_eq, ih.1.keys_eq⟩, ih.2⟩
  | bind value _ ih =>
      refine ⟨ih.1.bind value, ih.2.trans ?_⟩
      rw [ih.1.params_bind]
      exact List.prefix_append _ _

end Context.Ordered

/-! ## Steps -/

/-- If the step succeeds, the context evolves to the one it leaves. -/
def CompileM.Evolves {α : Type} (m : CompileM α) : Prop :=
  ∀ ⦃ctx : Context⦄ ⦃s : Session⦄ ⦃a : α⦄ ⦃ctx' : Context⦄ ⦃s' : Session⦄,
    outcome m ctx s = (.ok (a, ctx'), s') → ctx.Evolves ctx'

namespace CompileM.Evolves

variable {α β : Type}

theorem pure (a : α) : Evolves (pure a) := by
  intro ctx s _ _ _ h
  obtain ⟨-, rfl, -⟩ := pure_eq_ok.1 h
  exact .refl

theorem throw (e : CompileError) : Evolves (throw e : CompileM α) :=
  fun _ _ _ _ _ h => (throw_eq_ok.1 h).elim

theorem bind {m : CompileM α} {f : α → CompileM β} (hm : m.Evolves) (hf : ∀ a, (f a).Evolves) :
    (m >>= f).Evolves := by
  intro ctx s b ctx' s' h
  obtain ⟨a, ctx₁, s₁, h₁, h₂⟩ := bind_eq_ok.1 h
  exact (hm h₁).trans (hf a h₂)

theorem get : Evolves (get : CompileM Context) := by
  intro ctx s _ _ _ h
  obtain ⟨-, rfl, -⟩ := get_eq_ok.1 h
  exact .refl

theorem build (b : Build α) : Evolves (build b) := by
  intro ctx s _ _ _ h
  obtain ⟨-, rfl, -⟩ := build_eq_ok.1 h
  exact .refl

theorem report (event : Event) : Evolves (report event) := by
  intro ctx s _ _ _ h
  obtain ⟨rfl, -⟩ := report_eq_ok.1 h
  exact .refl

theorem referenceOf (id : NodeId) : Evolves (referenceOf id) := by
  intro ctx s _ _ _ h
  obtain ⟨-, rfl, -⟩ := referenceOf_eq_ok.1 h
  exact .refl

theorem registerAll (qualifier : String) (fields : List (NodeId × String)) :
    Evolves (registerAll qualifier fields) := by
  intro ctx s _ _ _ h
  obtain ⟨rfl, -⟩ := registerAll_eq_ok.1 h
  exact .registerAll qualifier fields ctx

theorem takeAlias : Evolves takeAlias := by
  intro ctx s _ _ _ h
  obtain ⟨-, rfl, -⟩ := takeAlias_eq_ok.1 h
  exact .takeAlias .refl

theorem bindValue (value : Value) : Evolves (bindValue value) := by
  intro ctx s _ _ _ h
  obtain ⟨-, rfl, -⟩ := bindValue_eq_ok.1 h
  exact .bind value .refl

theorem indented {m : CompileM α} (levels : Nat) (hm : m.Evolves) : (indented levels m).Evolves := by
  intro ctx s _ _ _ h
  obtain ⟨ctx₁, hok, rfl⟩ := indented_eq_ok.1 h
  exact .indent ctx.indent ((Context.Evolves.indent (ctx.indent + levels) .refl).trans (hm hok))

theorem normalize (q : Query) : Evolves (normalize q) := by
  intro ctx s _ _ _ h
  obtain ⟨trace, hn⟩ := outcome_normalize q ctx s
  rw [hn] at h
  cases h
  exact .refl

end CompileM.Evolves

open CompileM (Evolves)

/-! ## Expressions -/

def SubqueryCompiler.Evolves (sub : SubqueryCompiler) : Prop :=
  ∀ (query : Query) (scope : Scope), (sub query scope).Evolves

theorem registeredOr_evolves (id : NodeId) {own : CompileM Sql.Scalar} (h : own.Evolves) :
    (registeredOr id own).Evolves := by
  refine (Evolves.referenceOf id).bind fun ref => ?_
  cases ref with
  | none => exact h
  | some ref => exact .pure _

theorem compileLiteral_evolves (value : Value) : (compileLiteral value).Evolves := by
  unfold compileLiteral
  split
  · exact .pure _
  · exact Evolves.get.bind fun _ => (Evolves.bindValue _).bind fun _ => .pure _

theorem requireOneColumn_evolves (select : Sql.Select) : (requireOneColumn select).Evolves := by
  unfold requireOneColumn
  dsimp only
  split
  · exact .pure _
  · exact .throw _

section

variable {sub : SubqueryCompiler}

theorem CompileM.Evolves.compileAll : ∀ {es : List Expr}, (∀ e ∈ es, (e.compile sub).Evolves) →
    (Expr.compileAll sub es).Evolves
  | [], _ => .pure _
  | _ :: _, h => by
      rw [List.forall_mem_cons] at h
      exact h.1.bind fun _ => (CompileM.Evolves.compileAll h.2).bind fun _ => .pure _

theorem Expr.compile_evolves (hsub : sub.Evolves) (e : Expr) : (e.compile sub).Evolves := by
  induction e using Expr.form_induction with
  | refused _ he =>
      rw [he]
      exact registeredOr_evolves _ (.throw _)
  | bound _ => exact registeredOr_evolves _ (compileLiteral_evolves _)
  | assembled _ he ih =>
      rw [he]
      exact registeredOr_evolves _ ((Evolves.compileAll ih).bind fun _ => .pure _)
  | @membership id needle query scope ih =>
      exact registeredOr_evolves id (ih.bind fun _ => (Evolves.normalize query).bind fun normal =>
        ((hsub normal scope).indented 2).bind fun _ =>
          (requireOneColumn_evolves _).bind fun _ => .pure _)

theorem Expr.compileAll_evolves (hsub : sub.Evolves) (es : List Expr) :
    (Expr.compileAll sub es).Evolves :=
  .compileAll fun e _ => e.compile_evolves hsub

end

/-! ## Clauses and statements -/

theorem compileTable_evolves (t : Table) : (compileTable t).Evolves :=
  (Evolves.build _).bind fun _ => Evolves.takeAlias.bind fun _ =>
    (Evolves.registerAll _ _).bind fun _ => .pure _

theorem compileDerived_evolves (inner : Compiled) : (compileDerived inner).Evolves :=
  Evolves.takeAlias.bind fun _ => (Evolves.registerAll _ _).bind fun _ => .pure _

theorem givenNames_evolves (given : Option (List String)) (width : Nat) :
    (givenNames given width).Evolves := by
  cases given with
  | none => exact .pure _
  | some names =>
      show Evolves (if names.length = width then _ else _)
      split
      · exact .pure _
      · exact (Evolves.report _).bind fun _ => .pure _

section

variable {sub : SubqueryCompiler} (hsub : sub.Evolves) (scope : Scope)

include hsub

theorem compileJoin_evolves (join : JoinTerm) (row : Row) :
    (compileJoin sub scope join row).Evolves :=
  (Evolves.build _).bind fun _ => Evolves.takeAlias.bind fun _ =>
    (Evolves.registerAll _ _).bind fun _ => (Evolves.build _).bind fun outer =>
      (Expr.compile_evolves hsub outer).bind fun _ => (Evolves.build _).bind fun inner =>
        (Expr.compile_evolves hsub inner).bind fun _ => (Evolves.build _).bind fun _ => .pure _

theorem compileJoins_evolves : ∀ (joins : List JoinTerm) (row : Row),
    (compileJoins sub scope joins row).Evolves
  | [], _ => .pure _
  | join :: joins, row => (compileJoin_evolves hsub scope join row).bind fun _ =>
      (compileJoins_evolves joins _).bind fun _ => .pure _

theorem compileJoinClause_evolves (joins : Option (List JoinTerm)) (row : Row) :
    (compileJoinClause sub scope joins row).Evolves := by
  match joins with
  | none => exact .pure _
  | some [] => exact .throw _
  | some (join :: joins) => exact compileJoins_evolves hsub scope _ row

theorem compileCondition_evolves (predicate : Option ExprTerm) (row : Row) :
    (compileCondition sub scope predicate row).Evolves := by
  cases predicate with
  | none => exact .pure _
  | some t =>
      exact (Evolves.build _).bind fun e => (Expr.compile_evolves hsub e).bind fun _ => .pure _

theorem compileGrouping_evolves (grouping : Option Grouping) (row : Row) :
    (compileGrouping sub scope grouping row).Evolves := by
  cases grouping with
  | none => exact .pure _
  | some g =>
      refine (Evolves.build _).bind fun keys => ?_
      show Evolves (if keys.isEmpty then _ else _)
      split
      · exact .throw _
      · exact (Expr.compileAll_evolves hsub keys).bind fun _ =>
          (compileCondition_evolves hsub scope g.having row).bind fun _ => .pure _

theorem compileOrder_evolves (keys : List SortTerm) (row : Row) :
    (compileOrder sub scope keys row).Evolves :=
  (Evolves.build _).bind fun es => (Expr.compileAll_evolves hsub es).bind fun _ => .pure _

theorem compileProjection_evolves (given : Option (List String)) (row : Row) :
    (compileProjection sub given row).Evolves := by
  unfold compileProjection
  dsimp only
  split
  · exact .throw _
  · exact (Expr.compileAll_evolves hsub _).bind fun _ => (givenNames_evolves _ _).bind fun _ =>
      Evolves.get.bind fun _ => .pure _

theorem compileClauses_evolves (clauses : Clauses) (stages : List RowTerm)
    (aliases : Option (List String)) (source : Sql.Source) (row : Row) :
    (compileClauses sub scope clauses stages aliases source row).Evolves :=
  (compileJoinClause_evolves hsub scope _ _).bind fun _ =>
    (compileCondition_evolves hsub scope _ _).bind fun _ =>
      (compileGrouping_evolves hsub scope _ _).bind fun _ =>
        (compileOrder_evolves hsub scope _ _).bind fun _ => (Evolves.build _).bind fun _ =>
          (compileProjection_evolves hsub _ _).bind fun _ => .pure _

end

section

variable {sub : SubqueryCompiler} (scope : Scope)

mutual

theorem Block.compile_evolves (hsub : sub.Evolves) : ∀ block : Block,
    (block.compile sub scope).Evolves
  | .mk _ clauses base stages aliases => Evolves.get.bind fun _ => (Evolves.report _).bind fun _ =>
      (Base.compile_evolves hsub base).bind fun _ =>
        compileClauses_evolves hsub scope clauses stages aliases _ _

theorem Base.compile_evolves (hsub : sub.Evolves) : ∀ base : Base, (base.compile sub scope).Evolves
  | .table t => compileTable_evolves t
  | .derived block => ((Block.compile_evolves hsub block).indented 1).bind fun inner =>
      compileDerived_evolves inner
  | .strayHaving _ => .throw _

end

theorem Query.compile_evolves (hsub : sub.Evolves) (q : Query) : (q.compile sub scope).Evolves := by
  unfold Query.compile
  split
  · exact Block.compile_evolves scope hsub _
  · exact .throw _

end

theorem compileWithin_evolves : ∀ depth : Nat, (compileWithin depth).Evolves
  | 0, _, _ => .throw _
  | depth + 1, query, scope =>
      (Query.compile_evolves scope (compileWithin_evolves depth) query).bind fun _ => .pure _

theorem Query.compileIn_evolves (scope : Scope) (q : Query) : (q.compileIn scope).Evolves :=
  Query.compile_evolves scope (compileWithin_evolves _) q

/-! ## Changes of rows -/

section

variable {sub : SubqueryCompiler} (hsub : sub.Evolves) (scope : Scope)

include hsub

theorem compileAssignments_evolves (t : Table) (row : Row) :
    ∀ assignments : List (String × Assigned),
      (compileAssignments sub scope t row assignments).Evolves
  | [] => .pure _
  | (column, value) :: rest => by
      have hcolumn : (requireColumn t column).Evolves := by
        unfold requireColumn
        split
        · exact .pure _
        · exact .throw _
      exact hcolumn.bind fun _ => (Evolves.build _).bind fun e =>
        (Expr.compile_evolves hsub e).bind fun _ =>
          (compileAssignments_evolves t row rest).bind fun _ => .pure _

omit hsub in
theorem compileTarget_evolves (t : Table) : (compileTarget t).Evolves :=
  (Evolves.build _).bind fun _ => (Evolves.registerAll _ _).bind fun _ => .pure _

theorem Statement.compile_evolves (st : Statement) : (st.compile sub scope).Evolves := by
  cases st with
  | delete s =>
      exact (compileTarget_evolves _).bind fun row =>
        (compileCondition_evolves hsub scope _ row).bind fun _ => .pure _
  | update s =>
      show Evolves (if s.assignments.isEmpty then _ else _)
      split
      · exact .throw _
      · exact (compileTarget_evolves _).bind fun row =>
          (compileAssignments_evolves hsub scope _ row _).bind fun _ =>
            (compileCondition_evolves hsub scope _ row).bind fun _ => .pure _
  | insert s =>
      show Evolves (if s.values.isEmpty then _ else _)
      split
      · exact .throw _
      · exact (compileAssignments_evolves hsub scope _ _ _).bind fun _ => .pure _

end

theorem Statement.compileIn_evolves (scope : Scope) (st : Statement) : (st.compileIn scope).Evolves :=
  Statement.compile_evolves (compileWithin_evolves _) scope st

end QueryCompiler
