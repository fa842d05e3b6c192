import QueryCompiler.Proofs.Forms

/-! # `QueryCompiler.Proofs.Failures` — which errors a compilation can end with

`CompileM.FailsWith P m` says that an error of the step `m` has the property `P`.  It is a rule for
sequences, so what the errors of a whole compilation are is read off from where they are thrown.
-/

namespace QueryCompiler

section

open CompileM

variable {α β : Type} {m : CompileM α} {ctx ctx' : Context} {s s' : Session}

theorem CompileM.outcome_bind_of_ok {a : α} (h : outcome m ctx s = (.ok (a, ctx'), s'))
    (f : α → CompileM β) : outcome (m >>= f) ctx s = outcome (f a) ctx' s' := by
  rw [outcome_bind, h]

theorem CompileM.outcome_bind_of_error {e : CompileError} (h : outcome m ctx s = (.error e, s'))
    (f : α → CompileM β) : outcome (m >>= f) ctx s = (.error e, s') := by
  rw [outcome_bind, h]

theorem CompileM.start_of_error {d : Dialect} {e : CompileError}
    (h : outcome m (.empty d) s = (.error e, s')) : m.start d s = (.error e, s') := by
  unfold outcome at h
  unfold CompileM.start
  rw [h]

end

/-- If the step fails, its error has the property. -/
def CompileM.FailsWith {α : Type} (P : CompileError → Prop) (m : CompileM α) : Prop :=
  ∀ ⦃ctx : Context⦄ ⦃s : Session⦄ ⦃e : CompileError⦄, (outcome m ctx s).1 = .error e → P e

namespace CompileM.FailsWith

variable {α β : Type} {P : CompileError → Prop}

theorem pure (a : α) : FailsWith P (pure a) := by
  intro ctx s e h
  cases h

theorem throw {e : CompileError} (h : P e) : FailsWith P (throw e : CompileM α) := by
  intro ctx s e' he
  cases he
  exact h

theorem throw_bind {e : CompileError} (h : P e) (f : α → CompileM β) :
    FailsWith P ((MonadExcept.throw e : CompileM α) >>= f) := by
  intro ctx s e' he
  cases he
  exact h

theorem bind {m : CompileM α} {f : α → CompileM β} (hm : FailsWith P m)
    (hf : ∀ a, FailsWith P (f a)) : FailsWith P (m >>= f) := by
  intro ctx s e h
  rw [outcome_bind] at h
  rcases hfirst : outcome m ctx s with ⟨_ | ⟨a, ctx'⟩, s'⟩
  · rw [hfirst] at h
    cases h
    exact hm (congrArg Prod.fst hfirst)
  · rw [hfirst] at h
    exact hf a h

theorem get : FailsWith P (get : CompileM Context) := by
  intro ctx s e h
  cases h

theorem build (b : Build α) : FailsWith P (build b) := by
  intro ctx s e h
  cases h

theorem report (event : Event) : FailsWith P (report event) := by
  intro ctx s e h
  cases h

theorem registerAll (qualifier : String) (fields : List (NodeId × String)) :
    FailsWith P (registerAll qualifier fields) := by
  intro ctx s e h
  cases h

theorem takeAlias : FailsWith P takeAlias := by
  intro ctx s e h
  cases h

theorem bindValue (value : Value) : FailsWith P (bindValue value) := by
  intro ctx s e h
  cases h

theorem indented (levels : Nat) {m : CompileM α} (hm : FailsWith P m) :
    FailsWith P (indented levels m) := by
  intro ctx s e h
  rw [outcome_indented] at h
  rcases hinner : outcome m { ctx with indent := ctx.indent + levels } s with ⟨_ | ⟨a, ctx'⟩, s'⟩
  · rw [hinner] at h
    cases h
    exact hm (congrArg Prod.fst hinner)
  · rw [hinner] at h
    cases h

theorem normalize (q : Query) : FailsWith P (normalize q) := by
  intro ctx s e h
  obtain ⟨trace, hn⟩ := outcome_normalize q ctx s
  rw [hn] at h
  cases h

/-- The error of a whole compilation is one of its steps'. -/
theorem start {m : CompileM α} (hm : FailsWith P m) {d : Dialect} {s : Session} {e : CompileError}
    (h : (m.start d s).1 = .error e) : P e := by
  rw [start_fst] at h
  rcases hsteps : outcome m (.empty d) s with ⟨_ | ⟨a, ctx⟩, s'⟩
  · rw [hsteps] at h
    cases h
    exact hm (congrArg Prod.fst hsteps)
  · rw [hsteps] at h
    cases h

theorem registeredOr (id : NodeId) {own : CompileM Sql.Scalar} (h : FailsWith P own) :
    FailsWith P (registeredOr id own) := by
  intro ctx s e he
  rw [outcome_registeredOr] at he
  split at he
  · cases he
  · exact h he

end CompileM.FailsWith

open CompileM (FailsWith)

def SubqueryCompiler.FailsWith (P : CompileError → Prop) (sub : SubqueryCompiler) : Prop :=
  ∀ (query : Query) (scope : Scope), CompileM.FailsWith P (sub query scope)

/-- The property holds of the errors that expressions and clauses end with; those of subqueries, and
of what a statement reads from, are left open. -/
structure CompileError.OfClauses (P : CompileError → Prop) : Prop where
  emptyList : P (.unsupportedExpression "InList" "IN list is empty")
  columns : ∀ width : Nat, P (.unsupportedExpression "InSubquery"
    ("subquery projects " ++ toString width ++ " columns, expected 1"))
  missingAlias : ∀ node id, P (.missingAlias node id)
  unknownColumn : ∀ name, P (.unknownColumn name)
  emptyJoinChain : P .emptyJoinChain
  grouping : P (.unsupportedShape "GroupBy" "grouping without keys")
  projection : P (.unsupportedShape "Select" "empty projection")

section

variable {P : CompileError → Prop} {sub : SubqueryCompiler}

theorem compileLiteral_failsWith (value : Value) : FailsWith P (compileLiteral value) := by
  unfold compileLiteral
  split
  · exact .pure _
  · exact FailsWith.get.bind fun _ => (FailsWith.bindValue _).bind fun _ => .pure _

theorem requireOneColumn_failsWith (hP : CompileError.OfClauses P) (select : Sql.Select) :
    FailsWith P (requireOneColumn select) := by
  unfold requireOneColumn
  dsimp only
  split
  · exact .pure _
  · exact .throw (hP.columns _)

theorem CompileError.OfClauses.refused (hP : CompileError.OfClauses P) {e : Expr}
    {err : CompileError} (h : e.Refused err) : P err := by
  cases h with
  | column => exact hP.missingAlias _ _
  | unknown => exact hP.unknownColumn _
  | emptyList => exact hP.emptyList

theorem CompileM.FailsWith.compileAll : ∀ {es : List Expr}, (∀ e ∈ es, FailsWith P (e.compile sub)) →
    FailsWith P (Expr.compileAll sub es)
  | [], _ => .pure _
  | _ :: _, h => by
      rw [List.forall_mem_cons] at h
      exact h.1.bind fun _ => (CompileM.FailsWith.compileAll h.2).bind fun _ => .pure _

theorem Expr.compile_failsWith (hP : CompileError.OfClauses P) (hsub : sub.FailsWith P) (e : Expr) :
    FailsWith P (e.compile sub) := by
  induction e using Expr.form_induction with
  | refused h he =>
      rw [he]
      exact .registeredOr _ (.throw (hP.refused h))
  | bound _ => exact .registeredOr _ (compileLiteral_failsWith _)
  | assembled _ he ih =>
      rw [he]
      exact .registeredOr _ ((FailsWith.compileAll ih).bind fun _ => .pure _)
  | @membership id needle query scope ih =>
      exact .registeredOr id (ih.bind fun _ => (FailsWith.normalize query).bind fun normal =>
        ((hsub normal scope).indented 2).bind fun _ =>
          (requireOneColumn_failsWith hP _).bind fun _ => .pure _)

theorem Expr.compileAll_failsWith (hP : CompileError.OfClauses P) (hsub : sub.FailsWith P)
    (es : List Expr) : FailsWith P (Expr.compileAll sub es) :=
  .compileAll fun e _ => e.compile_failsWith hP hsub

/-! ## Clauses -/

theorem compileTable_failsWith (t : Table) : FailsWith P (compileTable t) :=
  (FailsWith.build _).bind fun _ => FailsWith.takeAlias.bind fun _ =>
    (FailsWith.registerAll _ _).bind fun _ => .pure _

theorem compileDerived_failsWith (inner : Compiled) : FailsWith P (compileDerived inner) :=
  FailsWith.takeAlias.bind fun _ => (FailsWith.registerAll _ _).bind fun _ => .pure _

theorem givenNames_failsWith (given : Option (List String)) (width : Nat) :
    FailsWith P (givenNames given width) := by
  cases given with
  | none => exact .pure _
  | some names =>
      show FailsWith P (if names.length = width then _ else _)
      split
      · exact .pure _
      · exact (FailsWith.report _).bind fun _ => .pure _

variable (hP : CompileError.OfClauses P) (hsub : sub.FailsWith P) (scope : Scope)

include hP hsub

theorem compileJoins_failsWith : ∀ (joins : List JoinTerm) (row : Row),
    FailsWith P (compileJoins sub scope joins row)
  | [], _ => .pure _
  | join :: joins, row => by
      have hjoin : FailsWith P (compileJoin sub scope join row) :=
        (FailsWith.build _).bind fun _ => FailsWith.takeAlias.bind fun _ =>
          (FailsWith.registerAll _ _).bind fun _ => (FailsWith.build _).bind fun outer =>
            (Expr.compile_failsWith hP hsub outer).bind fun _ => (FailsWith.build _).bind fun inner =>
              (Expr.compile_failsWith hP hsub inner).bind fun _ =>
                (FailsWith.build _).bind fun _ => .pure _
      exact hjoin.bind fun _ => (compileJoins_failsWith joins _).bind fun _ => .pure _

theorem compileJoinClause_failsWith (joins : Option (List JoinTerm)) (row : Row) :
    FailsWith P (compileJoinClause sub scope joins row) := by
  match joins with
  | none => exact .pure _
  | some [] => exact .throw hP.emptyJoinChain
  | some (join :: joins) => exact compileJoins_failsWith hP hsub scope _ row

theorem compileCondition_failsWith (predicate : Option ExprTerm) (row : Row) :
    FailsWith P (compileCondition sub scope predicate row) := by
  cases predicate with
  | none => exact .pure _
  | some t =>
      exact (FailsWith.build _).bind fun e =>
        (Expr.compile_failsWith hP hsub e).bind fun _ => .pure _

theorem compileGrouping_failsWith (grouping : Option Grouping) (row : Row) :
    FailsWith P (compileGrouping sub scope grouping row) := by
  cases grouping with
  | none => exact .pure _
  | some g =>
      refine (FailsWith.build _).bind fun keys => ?_
      show FailsWith P (if keys.isEmpty then _ else _)
      split
      · exact .throw hP.grouping
      · exact (Expr.compileAll_failsWith hP hsub keys).bind fun _ =>
          (compileCondition_failsWith hP hsub scope g.having row).bind fun _ => .pure _

theorem compileProjection_failsWith (given : Option (List String)) (row : Row) :
    FailsWith P (compileProjection sub given row) := by
  unfold compileProjection
  dsimp only
  split
  · exact .throw hP.projection
  · exact (Expr.compileAll_failsWith hP hsub _).bind fun _ =>
      (givenNames_failsWith _ _).bind fun _ => FailsWith.get.bind fun _ => .pure _

theorem compileClauses_failsWith (clauses : Clauses) (stages : List RowTerm)
    (aliases : Option (List String)) (source : Sql.Source) (row : Row) :
    FailsWith P (compileClauses sub scope clauses stages aliases source row) :=
  (compileJoinClause_failsWith hP hsub scope _ _).bind fun _ =>
    (compileCondition_failsWith hP hsub scope _ _).bind fun _ =>
      (compileGrouping_failsWith hP hsub scope _ _).bind fun _ =>
        ((FailsWith.build _).bind fun es => (Expr.compileAll_failsWith hP hsub es).bind fun _ =>
          .pure _ : FailsWith P (compileOrder sub scope _ _)).bind fun _ =>
          (FailsWith.build _).bind fun _ =>
            (compileProjection_failsWith hP hsub _ _).bind fun _ => .pure _

end

end QueryCompiler
