import QueryCompiler.Proofs.Aliases
import QueryCompiler.Proofs.Isolation.Allocation

/-! # `QueryCompiler.Proofs.Isolation.Scripts` — the moments a compilation passes

A step is a function from a moment to a result, and a failure loses its context: what happens on the
way cannot be read off it.  A script says how a step is made of primitive ones.  It is indexed by the
step, so that a script of `compileTable t` is one of that very function, and it tells the moments
between the primitive steps, whether the whole succeeds or not.  The index does not settle those
moments by itself, since a step that fails equals it with anything put before the failure; so the
scripts below follow the definitions of the steps line by line.

A script also marks where columns of a table are made for the statement to read: where a table is
opened, and where a statement that changes rows has its target.
-/

namespace QueryCompiler

open CompileM

/-- How a step is made of primitive ones; the first index tells which tables may be targets. -/
inductive Script : (Table → Prop) → {α : Type} → CompileM α → Type 1
  | pure {T} {α : Type} (a : α) : Script T (pure a : CompileM α)
  | throw {T} {α : Type} (e : CompileError) : Script T (throw e : CompileM α)
  | get {T} : Script T (get : CompileM Context)
  | build {T} {α : Type} (b : Build α) (onward : b.Onward) : Script T (CompileM.build b)
  | report {T} (event : Event) : Script T (CompileM.report event)
  | takeAlias {T} : Script T CompileM.takeAlias
  | bindValue {T} (value : Value) : Script T (CompileM.bindValue value)
  | registerAll {T} (qualifier : String) (fields : List (NodeId × String)) :
      Script T (CompileM.registerAll qualifier fields)
  | indented {T} {α : Type} {m : CompileM α} (levels : Nat) (inner : Script T m) :
      Script T (CompileM.indented levels m)
  | bind {T} {α β : Type} {m : CompileM α} {f : α → CompileM β} (first : Script T m)
      (rest : ∀ a, Script T (f a)) : Script T (m >>= f)
  | ite {T} {α : Type} {c : Prop} [Decidable c] {m m' : CompileM α} (yes : Script T m)
      (no : Script T m') : Script T (if c then m else m')
  | same {T} {α : Type} {m m' : CompileM α} (eq : m = m') (script : Script T m) : Script T m'
  | untargeted {T} {α : Type} {m : CompileM α} (script : Script (fun _ => False) m) : Script T m
  | table {T} (t : Table) (steps : Script T (compileTable t)) : Script T (compileTable t)
  | target {T : Table → Prop} (t : Table) (allowed : T t) (steps : Script T (compileTarget t)) :
      Script T (compileTarget t)

/-! ## Moments and uses of tables -/

/-- The result of a step and the moment after it, if it succeeds. -/
def CompileM.run? {α : Type} (m : CompileM α) (μ : Moment) : Option (α × Moment) :=
  match m μ.context μ.session with
  | (.ok (a, ctx), session) => some (a, ⟨ctx, session⟩)
  | (.error _, _) => none

/-- Columns that have been made for a table, and the moments before and after. -/
structure TableUse where
  table : Table
  before : Moment
  qualifier : String
  columns : List Expr
  after : Moment

namespace Script

/-- The moments that are passed when the step is carried out, in order. -/
def moments : {T : Table → Prop} → {α : Type} → {m : CompileM α} → Script T m → Moment → List Moment
  | _, _, _, @indented _ _ m levels inner, μ =>
    μ :: (inner.moments (μ.deeper levels) ++
      ((CompileM.indented levels m).run? μ).toList.map (·.2))
  | _, _, _, @bind _ _ _ m _ first rest, μ =>
    first.moments μ ++ (m.run? μ).toList.flatMap fun r => (rest r.1).moments r.2
  | _, _, _, @ite _ _ c _ _ _ yes no, μ => if c then yes.moments μ else no.moments μ
  | _, _, _, same _ script, μ => script.moments μ
  | _, _, _, untargeted script, μ => script.moments μ
  | _, _, _, table _ steps, μ => steps.moments μ
  | _, _, _, target _ _ steps, μ => steps.moments μ
  | _, _, m, _, μ => μ :: (m.run? μ).toList.map (·.2)

/-- The uses that are made of tables when the step is carried out, in order. -/
def uses : {T : Table → Prop} → {α : Type} → {m : CompileM α} → Script T m → Moment → List TableUse
  | _, _, _, indented levels inner, μ => inner.uses (μ.deeper levels)
  | _, _, _, @bind _ _ _ m _ first rest, μ =>
    first.uses μ ++ (m.run? μ).toList.flatMap fun r => (rest r.1).uses r.2
  | _, _, _, @ite _ _ c _ _ _ yes no, μ => if c then yes.uses μ else no.uses μ
  | _, _, _, same _ script, μ => script.uses μ
  | _, _, _, untargeted script, μ => script.uses μ
  | _, _, _, table t _, μ => ((compileTable t).run? μ).toList.map fun r =>
    ⟨t, μ, r.1.1.label, r.1.2.leaves, r.2⟩
  | _, _, _, target t _ _, μ => ((compileTarget t).run? μ).toList.map fun r =>
    ⟨t, μ, t.name, r.1.leaves, r.2⟩
  | _, _, _, _, _ => []

end Script

/-! ## The compiler -/

section

variable {T : Table → Prop}

def CompileM.reportPasses.script : ∀ (number : Nat) (passes : List Query.Pass),
    Script T (CompileM.reportPasses number passes)
  | _, [] => .pure _
  | number, _ :: passes => .bind (.report _) fun _ => script (number + 1) passes

def CompileM.normalize.script (q : Query) : Script T (CompileM.normalize q) :=
  .bind (reportPasses.script 1 q.passes) fun _ => .pure _

def registeredOr.script (id : NodeId) {own : CompileM Sql.Scalar} (script : Script T own) :
    Script T (registeredOr id own) :=
  .bind (.bind .get fun _ => .pure _) fun
    | some _ => .pure _
    | none => script

def compileLiteral.script (value : Value) : Script T (compileLiteral value) :=
  .ite (.pure _) (.bind .get fun _ => .bind (.bindValue _) fun _ => .pure _)

def requireOneColumn.script (select : Sql.Select) : Script T (requireOneColumn select) :=
  .ite (.pure _) (.throw _)

variable {sub : SubqueryCompiler} (scripts : ∀ q scope, Script T (sub q scope))

mutual

def Expr.script : ∀ e : Expr, Script T (e.compile sub)
  | .literal id value => registeredOr.script id (compileLiteral.script value)
  | .null id | .parameter id _ | .countStar id => registeredOr.script id (.pure _)
  | .column id _ _ | .unknown id _ | .inList id _ [] => registeredOr.script id (.throw _)
  | .unary id _ operand | .aggregate id _ _ operand =>
    registeredOr.script id (.bind operand.script fun _ => .pure _)
  | .binary id _ left right | .like id left right =>
    registeredOr.script id (.bind left.script fun _ => .bind right.script fun _ => .pure _)
  | .compare id op left right => registeredOr.script id
    -- a comparison with null writes one operand, any other both
    (match op.nullTest?, left.isNullLiteral, right.isNullLiteral with
    | some _, true, true | some _, false, true => .bind left.script fun _ => .pure _
    | some _, true, false => .bind right.script fun _ => .pure _
    | some _, false, false | none, _, _ =>
      .bind left.script fun _ => .bind right.script fun _ => .pure _)
  | .case id condition positive negative => registeredOr.script id
    (.bind condition.script fun _ => .bind positive.script fun _ =>
      .bind negative.script fun _ => .pure _)
  | .inList id needle (value :: values) => registeredOr.script id
    (.bind needle.script fun _ => .bind value.script fun _ =>
      .bind (Expr.scriptAll values) fun _ => .pure _)
  | .inQuery id needle query scope => registeredOr.script id
    (.bind needle.script fun _ => .bind (CompileM.normalize.script query) fun query =>
      .bind (.indented 2 (scripts query scope)) fun select =>
        .bind (requireOneColumn.script select) fun _ => .pure _)

def Expr.scriptAll : ∀ es : List Expr, Script T (Expr.compileAll sub es)
  | [] => .pure _
  | e :: es => .bind e.script fun _ => .bind (Expr.scriptAll es) fun _ => .pure _

end

/-! ### Sources -/

theorem Table.instantiate_onward (t : Table) : t.instantiate.Onward :=
  .of_draws fun _ => Table.columnNodes_draws t.name t.columns

def compileTable.script (t : Table) : Script T (compileTable t) :=
  .table t (.bind (.build _ t.instantiate_onward) fun _ => .bind .takeAlias fun _ =>
    .bind (.registerAll _ _) fun _ => .pure _)

def compileTarget.script (t : Table) (allowed : T t) : Script T (compileTarget t) :=
  .target t allowed (.bind (.build _ t.instantiate_onward) fun _ =>
    .bind (.registerAll _ _) fun _ => .pure _)

def compileDerived.script (inner : Compiled) : Script T (compileDerived inner) :=
  .bind .takeAlias fun _ => .bind (.registerAll _ _) fun _ => .pure _

/-! ### Clauses -/

theorem ExprTerm.eval_onward (t : ExprTerm) (scope : Scope) : (t.eval scope).Onward :=
  .of_draws fun s => t.eval_draws (s.holds_anything _)

theorem ExprTerm.evalAll_onward (ts : List ExprTerm) (scope : Scope) :
    (ExprTerm.evalAll ts scope).Onward :=
  .of_draws fun s => ExprTerm.evalAll_draws ts (s.holds_anything _)

theorem RowTerm.eval_onward (t : RowTerm) (scope : Scope) : (t.eval scope).Onward :=
  .of_draws fun s => t.eval_draws (s.holds_anything _)

theorem RowTerm.runStages_onward (scope : Scope) (stages : List RowTerm) (row : Row) :
    (RowTerm.runStages scope stages row).Onward :=
  .of_draws fun s => RowTerm.runStages_draws stages (s.holds_anything _) (s.holds_anything _)

variable (scope : Scope)

/-- A join starts like a table that is opened. -/
theorem compileJoin_eq (join : JoinTerm) (row : Row) :
    (do
      let (source, inner) ← compileTable join.table
      let outerKey ← CompileM.build (join.outerKey.evalOn scope row)
      let outerSql ← outerKey.compile sub
      let innerKey ← CompileM.build (join.innerKey.evalOn scope inner)
      let innerSql ← innerKey.compile sub
      let row ← CompileM.build (join.result.evalJoined scope row inner)
      return (.mk join.kind join.table.name source.label outerSql innerSql, row)) =
    compileJoin sub scope join row := rfl

def compileJoin.script (join : JoinTerm) (row : Row) : Script T (compileJoin sub scope join row) :=
  .same (compileJoin_eq scope join row) (.bind (compileTable.script join.table) fun (_, _) =>
    .bind (.build _ (join.outerKey.eval_onward _)) fun outerKey =>
    .bind (outerKey.script scripts) fun _ =>
    .bind (.build _ (join.innerKey.eval_onward _)) fun innerKey =>
    .bind (innerKey.script scripts) fun _ =>
    .bind (.build _ (join.result.eval_onward _)) fun _ => .pure _)

def compileJoins.script : ∀ (joins : List JoinTerm) (row : Row),
    Script T (compileJoins sub scope joins row)
  | [], _ => .pure _
  | join :: joins, row => .bind (compileJoin.script scripts scope join row) fun (_, row) =>
    .bind (compileJoins.script joins row) fun (_, _) => .pure _

def compileJoinClause.script : ∀ (joins : Option (List JoinTerm)) (row : Row),
    Script T (compileJoinClause sub scope joins row)
  | none, _ => .pure _
  | some [], _ => .throw _
  | some (join :: joins), row => compileJoins.script scripts scope (join :: joins) row

def compileCondition.script : ∀ (term : Option ExprTerm) (row : Row),
    Script T (compileCondition sub scope term row)
  | none, _ => .pure _
  | some term, _ => .bind (.build _ (term.eval_onward _)) fun e =>
    .bind (e.script scripts) fun _ => .pure _

def compileGrouping.script : ∀ (grouping : Option Grouping) (row : Row),
    Script T (compileGrouping sub scope grouping row)
  | none, _ => .pure _
  | some grouping, row => .bind (.build _ (ExprTerm.evalAll_onward grouping.keys _)) fun keys =>
    .ite (.throw _) (.bind (Expr.scriptAll scripts keys) fun _ =>
      .bind (compileCondition.script scripts scope grouping.having row) fun _ => .pure _)

def compileOrder.script (keys : List SortTerm) (row : Row) :
    Script T (compileOrder sub scope keys row) :=
  .bind (.build _ (ExprTerm.evalAll_onward _ _)) fun es =>
    .bind (Expr.scriptAll scripts es) fun _ => .pure _

def givenNames.script : ∀ (given : Option (List String)) (width : Nat),
    Script T (givenNames given width)
  | none, _ => .pure _
  | some _, _ => .ite (.pure _) (.bind (.report _) fun _ => .pure _)

def compileProjection.script (given : Option (List String)) (row : Row) :
    Script T (compileProjection sub given row) :=
  .ite (.throw _) (.bind (Expr.scriptAll scripts row.flatten) fun _ =>
    .bind (givenNames.script given _) fun _ => .bind .get fun _ => .pure _)

def compileClauses.script (clauses : Clauses) (stages : List RowTerm)
    (aliases : Option (List String)) (source : Sql.Source) (row : Row) :
    Script T (compileClauses sub scope clauses stages aliases source row) :=
  .bind (compileJoinClause.script scripts scope clauses.joins row) fun (_, row) =>
  .bind (compileCondition.script scripts scope clauses.filter row) fun _ =>
  .bind (compileGrouping.script scripts scope clauses.grouping row) fun (_, _, row) =>
  .bind (compileOrder.script scripts scope (clauses.order.getD []) row) fun _ =>
  .bind (.build _ (RowTerm.runStages_onward scope stages row)) fun row =>
  .bind (compileProjection.script scripts (aliases.or (joinAliases clauses.joins)) row)
    fun (_, _) => .pure _

/-! ### Blocks -/

mutual

def Block.script : ∀ block : Block, Script T (block.compile sub scope)
  | .mk _ clauses base stages aliases => .bind .get fun _ => .bind (.report _) fun _ =>
    .bind base.script fun (source, row) =>
      compileClauses.script scripts scope clauses stages aliases source row

def Base.script : ∀ base : Base, Script T (base.compile sub scope)
  | .table t => compileTable.script t
  | .derived block => .bind (.indented 1 block.script) fun inner => compileDerived.script inner
  | .strayHaving _ => .throw _

end

def Query.script (q : Query) : Script T (q.compile sub scope) :=
  match h : q.block? with
  | some block => .same (by rw [Query.compile, h]) (block.script scripts scope)
  | none => .same (by rw [Query.compile, h]) (.throw (.unsupportedShape q.kind q.shape))

def compileWithin.script : ∀ (depth : Nat) (q : Query) (scope : Scope),
    Script T (compileWithin depth q scope)
  | 0, _, _ => .throw _
  | depth + 1, q, scope => .bind (q.script (compileWithin.script depth) scope) fun _ => .pure _

/-! ### Statements that change rows -/

def requireColumn.script (t : Table) (column : String) : Script T (requireColumn t column) :=
  .ite (.pure _) (.throw _)

theorem Assigned.build_onward (row : Row) (value : Assigned) : (value.build scope row).Onward := by
  cases value with
  | computed term => exact term.eval_onward _
  | fixed e => exact .refl

def compileAssignments.script (t : Table) (row : Row) : ∀ assignments : List (String × Assigned),
    Script T (compileAssignments sub scope t row assignments)
  | [] => .pure _
  | (column, value) :: rest => .bind (requireColumn.script t column) fun _ =>
    .bind (.build _ (value.build_onward scope row)) fun e => .bind (e.script scripts) fun _ =>
      .bind (compileAssignments.script t row rest) fun _ => .pure _

def Statement.table : Statement → Table
  | .delete s => s.table
  | .update s => s.table
  | .insert s => s.table

/-- The target comes first, if there is one, and nothing behind it has a target of its own. -/
def Statement.script {sub : SubqueryCompiler}
    (scripts : ∀ q scope, Script (fun _ => False) (sub q scope)) (st : Statement)
    (allowed : T st.table) : Script T (st.compile sub scope) :=
  match st, allowed with
  | .delete s, allowed => .bind (compileTarget.script s.table allowed) fun row => .untargeted
    (.bind (compileCondition.script scripts scope (conjunction s.filters) row) fun _ => .pure _)
  | .update s, allowed => .ite (.throw _) (.bind (compileTarget.script s.table allowed) fun row =>
    .untargeted (.bind (compileAssignments.script scripts scope s.table row s.assignments) fun _ =>
      .bind (compileCondition.script scripts scope (conjunction s.filters) row) fun _ => .pure _))
  | .insert s, _ => .ite (.throw _) (.untargeted
    (.bind (compileAssignments.script scripts scope s.table .absent _) fun _ => .pure _))

/-! ### Entry points -/

def Query.textScript (q : Query) : Script T (q.compileText scope) :=
  .bind .get fun _ => .bind (.report _) fun _ => .bind (CompileM.normalize.script q) fun normal =>
  .bind (normal.script (compileWithin.script (normal.subqueries + scope.nesting)) scope) fun _ =>
  .bind .get fun _ => .bind (.report _) fun _ => .pure _

def ScalarQuery.textScript (q : ScalarQuery) : Script T (q.compileText scope) :=
  .bind .get fun _ => .bind (.report _) fun _ => q.toQuery.textScript scope

def Statement.textScript (st : Statement) (allowed : T st.table) :
    Script T (st.compileText scope) :=
  .bind .get fun _ => .bind (.report _) fun _ =>
  .bind (st.script scope (compileWithin.script (st.nesting scope)) allowed) fun _ =>
  .untargeted (.bind .get fun _ => .bind (.report _) fun _ => .pure _)

end

/-! ## The order of moments -/

structure Moment.Precedes (μ ν : Moment) : Prop where
  counter_le : μ.counter ≤ ν.counter
  supply : μ.session.supply.Precedes ν.session.supply

namespace Moment.Precedes

variable {μ ν κ : Moment}

theorem refl (μ : Moment) : μ.Precedes μ := ⟨Nat.le_refl _, .refl _⟩

theorem trans (h : μ.Precedes ν) (h' : ν.Precedes κ) : μ.Precedes κ :=
  ⟨Nat.le_trans h.counter_le h'.counter_le, h.supply.trans h'.supply⟩

/-- Most steps leave the supply as it is. -/
theorem of_session (hcounter : μ.counter ≤ ν.counter)
    (hsupply : ν.session.supply = μ.session.supply) : μ.Precedes ν :=
  ⟨hcounter, hsupply ▸ .refl _⟩

end Moment.Precedes

/-- Coming back from further in is no step back in time. -/
theorem CompileM.Takes.exists_precedes {α : Type} {m : CompileM α} {levels : Nat} {μ ν : Moment}
    {a : α} (h : (CompileM.indented levels m).Takes μ a ν) :
    ∃ κ, m.Takes (μ.deeper levels) a κ ∧ κ.Precedes ν := by
  obtain ⟨ctx, hm, hν⟩ := indented_eq_ok.1 h
  refine ⟨⟨ctx, ν.session⟩, hm, .of_session (Nat.le_of_eq ?_) rfl⟩
  rw [Moment.counter, Moment.counter, ← hν]

namespace Script

variable {T : Table → Prop} {α : Type} {m : CompileM α}

/-- Whatever is done, time does not go back. -/
theorem precedes (script : Script T m) {μ ν : Moment} {a : α} (h : m.Takes μ a ν) :
    μ.Precedes ν := by
  induction script generalizing μ ν with
  | pure =>
      obtain ⟨-, rfl⟩ := takes_pure.1 h
      exact .refl _
  | throw => exact (takes_throw.1 h).elim
  | get =>
      obtain ⟨-, rfl⟩ := takes_get.1 h
      exact .refl _
  | build b onward =>
      obtain ⟨-, hctx, hs⟩ := takes_build.1 h
      refine ⟨Nat.le_of_eq (congrArg Context.nextAlias hctx), ?_⟩
      rw [← hs]
      exact onward _
  | report =>
      obtain ⟨hctx, hs⟩ := report_eq_ok.1 h
      exact .of_session (Nat.le_of_eq (congrArg Context.nextAlias hctx)) (hs ▸ rfl)
  | takeAlias =>
      obtain ⟨-, hctx, hs⟩ := takeAlias_eq_ok.1 h
      refine .of_session ?_ (hs ▸ rfl)
      rw [Moment.counter, Moment.counter, ← hctx]
      exact Nat.le_succ _
  | bindValue =>
      obtain ⟨-, rfl⟩ := takes_bindValue.1 h
      exact .of_session (Nat.le_refl _) rfl
  | registerAll =>
      obtain ⟨hctx, hs⟩ := registerAll_eq_ok.1 h
      refine .of_session (Nat.le_of_eq ?_) (hs ▸ rfl)
      rw [Moment.counter, Moment.counter, ← hctx, Context.nextAlias_registerAll]
  | indented levels inner ih =>
      obtain ⟨κ, hm, hκ⟩ := h.exists_precedes
      have hinner := (ih hm).trans hκ
      exact ⟨hinner.counter_le, hinner.supply⟩
  | bind first rest ihFirst ihRest =>
      obtain ⟨a, κ, hfirst, hrest⟩ := takes_bind.1 h
      exact (ihFirst hfirst).trans (ihRest a hrest)
  | @ite _ _ c _ _ _ yes no ihYes ihNo =>
      by_cases hc : c
      · rw [if_pos hc] at h
        exact ihYes h
      · rw [if_neg hc] at h
        exact ihNo h
  | same eq script ih => exact ih (eq ▸ h)
  | untargeted script ih => exact ih h
  | table t steps ih => exact ih h
  | target t allowed steps ih => exact ih h

end Script

/-! ## Moments that are passed -/

namespace Script

variable {T : Table → Prop} {α β : Type} {m m' : CompileM α} {f : α → CompileM β} {μ ν κ : Moment}

theorem run?_eq_some {a : α} : m.run? μ = some (a, ν) ↔ m.Takes μ a ν := by
  obtain ⟨ctx, session⟩ := ν
  rw [CompileM.run?, Takes, outcome]
  rcases m μ.context μ.session with ⟨e | ⟨b, ctx'⟩, session'⟩
  · simp
  · simp [and_assoc]

theorem mem_ends : κ ∈ μ :: (m.run? μ).toList.map (·.2) ↔ κ = μ ∨ ∃ a, m.Takes μ a κ := by
  simp [run?_eq_some]

theorem mem_moments_indented {levels : Nat} {inner : Script T m} :
    κ ∈ (indented levels inner).moments μ ↔
      κ = μ ∨ κ ∈ inner.moments (μ.deeper levels) ∨
        ∃ a, (CompileM.indented levels m).Takes μ a κ := by
  simp [moments, run?_eq_some]

theorem mem_moments_bind {first : Script T m} {rest : ∀ a, Script T (f a)} :
    κ ∈ (bind first rest).moments μ ↔
      κ ∈ first.moments μ ∨ ∃ a ν, m.Takes μ a ν ∧ κ ∈ (rest a).moments ν := by
  simp [moments, run?_eq_some]

theorem mem_moments_ite {c : Prop} [Decidable c] {yes : Script T m} {no : Script T m'} :
    κ ∈ (ite (c := c) yes no).moments μ ↔
      c ∧ κ ∈ yes.moments μ ∨ ¬ c ∧ κ ∈ no.moments μ := by
  by_cases hc : c <;> simp [moments, hc]

/-- The first moment is passed. -/
theorem start_mem_moments (script : Script T m) (μ : Moment) : μ ∈ script.moments μ := by
  induction script generalizing μ with
  | bind first rest ihFirst ihRest => exact mem_moments_bind.2 (.inl (ihFirst μ))
  | @ite _ _ c _ _ _ yes no ihYes ihNo =>
      by_cases hc : c
      · exact mem_moments_ite.2 (.inl ⟨hc, ihYes μ⟩)
      · exact mem_moments_ite.2 (.inr ⟨hc, ihNo μ⟩)
  | same eq script ih => exact ih μ
  | untargeted script ih => exact ih μ
  | table t steps ih => exact ih μ
  | target t allowed steps ih => exact ih μ
  | _ => exact List.mem_cons_self

/-- So is the last one, if there is one. -/
theorem stop_mem_moments (script : Script T m) {a : α} (h : m.Takes μ a ν) :
    ν ∈ script.moments μ := by
  induction script generalizing μ ν with
  | indented levels inner ih => exact mem_moments_indented.2 (.inr (.inr ⟨_, h⟩))
  | bind first rest ihFirst ihRest =>
      obtain ⟨a, κ, hfirst, hrest⟩ := takes_bind.1 h
      exact mem_moments_bind.2 (.inr ⟨a, κ, hfirst, ihRest a hrest⟩)
  | @ite _ _ c _ _ _ yes no ihYes ihNo =>
      by_cases hc : c
      · rw [if_pos hc] at h
        exact mem_moments_ite.2 (.inl ⟨hc, ihYes h⟩)
      · rw [if_neg hc] at h
        exact mem_moments_ite.2 (.inr ⟨hc, ihNo h⟩)
  | same eq script ih => exact ih (eq ▸ h)
  | untargeted script ih => exact ih h
  | table t steps ih => exact ih h
  | target t allowed steps ih => exact ih h
  | _ => exact mem_ends.2 (.inr ⟨_, h⟩)

/-- What holds between the ends of every step, and is not lost on the way in, holds between the first
moment and any other that is passed. -/
theorem rel_of_mem_moments {R : Moment → Moment → Prop} (hrefl : ∀ μ, R μ μ)
    (htrans : ∀ {μ ν κ}, R μ ν → R ν κ → R μ κ) (hdeeper : ∀ μ levels, R μ (μ.deeper levels))
    (htakes : ∀ {T : Table → Prop} {α : Type} {m : CompileM α} (_ : Script T m) {μ ν : Moment} {a : α},
      m.Takes μ a ν → R μ ν)
    {script : Script T m} (h : κ ∈ script.moments μ) : R μ κ := by
  have hends : ∀ {T : Table → Prop} {α : Type} {m : CompileM α} (_ : Script T m) {μ : Moment},
      κ ∈ μ :: (m.run? μ).toList.map (·.2) → R μ κ := by
    intro T α m script μ h
    rcases mem_ends.1 h with rfl | ⟨a, ht⟩
    · exact hrefl _
    · exact htakes script ht
  induction script generalizing μ with
  | pure a => exact hends (Script.pure (T := T) a) h
  | throw e => exact hends (Script.throw (T := T) e) h
  | get => exact hends (Script.get (T := T)) h
  | build b onward => exact hends (Script.build (T := T) b onward) h
  | report event => exact hends (Script.report (T := T) event) h
  | takeAlias => exact hends (Script.takeAlias (T := T)) h
  | bindValue value => exact hends (Script.bindValue (T := T) value) h
  | registerAll qualifier fields => exact hends (Script.registerAll (T := T) qualifier fields) h
  | indented levels inner ih =>
      rcases mem_moments_indented.1 h with rfl | h | ⟨a, ht⟩
      · exact hrefl _
      · exact htrans (hdeeper μ levels) (ih h)
      · exact htakes (Script.indented levels inner) ht
  | bind first rest ihFirst ihRest =>
      rcases mem_moments_bind.1 h with h | ⟨a, ν, hfirst, h⟩
      · exact ihFirst h
      · exact htrans (htakes first hfirst) (ihRest a h)
  | ite yes no ihYes ihNo =>
      rcases mem_moments_ite.1 h with ⟨-, h⟩ | ⟨-, h⟩
      · exact ihYes h
      · exact ihNo h
  | same eq script ih => exact ih h
  | untargeted script ih => exact ih h
  | table t steps ih => exact ih h
  | target t allowed steps ih => exact ih h

/-- No moment that is passed is before the first. -/
theorem precedes_of_mem_moments {script : Script T m} (h : κ ∈ script.moments μ) :
    μ.Precedes κ := by
  refine rel_of_mem_moments .refl .trans (fun μ levels => ?_) (fun script _ _ _ => script.precedes) h
  exact .of_session (Nat.le_refl _) rfl

end Script

/-! ## Uses that are made of tables -/

namespace TableUse

/-- The table was opened under a new alias. -/
def Opened (u : TableUse) : Prop :=
  (compileTable u.table).Takes u.before
    (.table u.table.name u.qualifier, .table u.table u.columns) u.after

/-- The table was made the target of a change, under its own name. -/
def Targeted (u : TableUse) : Prop :=
  u.qualifier = u.table.name ∧
    (compileTarget u.table).Takes u.before (.table u.table u.columns) u.after

end TableUse

namespace Script

variable {T : Table → Prop} {α β : Type} {m m' : CompileM α} {f : α → CompileM β} {μ ν : Moment}
  {u : TableUse}

theorem mem_uses_bind {first : Script T m} {rest : ∀ a, Script T (f a)} :
    u ∈ (bind first rest).uses μ ↔
      u ∈ first.uses μ ∨ ∃ a ν, m.Takes μ a ν ∧ u ∈ (rest a).uses ν := by
  simp [uses, run?_eq_some]

theorem mem_uses_ite {c : Prop} [Decidable c] {yes : Script T m} {no : Script T m'} :
    u ∈ (ite (c := c) yes no).uses μ ↔ c ∧ u ∈ yes.uses μ ∨ ¬ c ∧ u ∈ no.uses μ := by
  by_cases hc : c <;> simp [uses, hc]

theorem opened_of_mem_uses {t : Table} {steps : Script T (compileTable t)}
    (h : u ∈ (table t steps).uses μ) : u.table = t ∧ u.before = μ ∧ u.Opened := by
  obtain ⟨⟨r, κ⟩, hr, rfl⟩ := List.mem_map.1 h
  have ht := run?_eq_some.1 (Option.mem_toList.1 hr)
  refine ⟨rfl, rfl, ?_⟩
  have hr : ∃ label columns, r = (.table t.name label, .table t columns) := by
    simp only [compileTable, takes_bind, takes_pure] at ht
    obtain ⟨columns, -, -, label, -, -, -, -, -, rfl, -⟩ := ht
    exact ⟨label, columns, rfl⟩
  obtain ⟨label, columns, rfl⟩ := hr
  exact ht

theorem targeted_of_mem_uses {t : Table} {allowed : T t} {steps : Script T (compileTarget t)}
    (h : u ∈ (target t allowed steps).uses μ) : u.table = t ∧ u.before = μ ∧ u.Targeted := by
  obtain ⟨⟨row, κ⟩, hr, rfl⟩ := List.mem_map.1 h
  have ht := run?_eq_some.1 (Option.mem_toList.1 hr)
  refine ⟨rfl, rfl, rfl, ?_⟩
  have hr : ∃ columns, row = .table t columns := by
    simp only [compileTarget, takes_bind, takes_pure] at ht
    obtain ⟨columns, -, -, -, -, -, rfl, -⟩ := ht
    exact ⟨columns, rfl⟩
  obtain ⟨columns, rfl⟩ := hr
  exact ht

/-- A use is made of a table that is opened, or of an allowed target. -/
theorem kind_of_mem_uses {script : Script T m} (h : u ∈ script.uses μ) :
    u.Opened ∨ u.Targeted ∧ T u.table := by
  induction script generalizing μ with
  | indented levels inner ih => exact ih h
  | bind first rest ihFirst ihRest =>
      rcases mem_uses_bind.1 h with h | ⟨a, κ, -, h⟩
      · exact ihFirst h
      · exact ihRest a h
  | ite yes no ihYes ihNo =>
      rcases mem_uses_ite.1 h with ⟨-, h⟩ | ⟨-, h⟩
      · exact ihYes h
      · exact ihNo h
  | same eq script ih => exact ih h
  | untargeted script ih => exact .inl ((ih h).resolve_right fun hnone => hnone.2)
  | table t steps => exact .inl (opened_of_mem_uses h).2.2
  | target t allowed steps =>
      obtain ⟨rfl, -, htargeted⟩ := targeted_of_mem_uses h
      exact .inr ⟨htargeted, allowed⟩
  | _ => exact absurd h List.not_mem_nil

/-- The moment before a use is passed. -/
theorem before_mem_moments {script : Script T m} (h : u ∈ script.uses μ) :
    u.before ∈ script.moments μ := by
  induction script generalizing μ with
  | indented levels inner ih => exact mem_moments_indented.2 (.inr (.inl (ih h)))
  | bind first rest ihFirst ihRest =>
      rcases mem_uses_bind.1 h with h | ⟨a, κ, hfirst, h⟩
      · exact mem_moments_bind.2 (.inl (ihFirst h))
      · exact mem_moments_bind.2 (.inr ⟨a, κ, hfirst, ihRest a h⟩)
  | ite yes no ihYes ihNo =>
      rcases mem_uses_ite.1 h with ⟨hc, h⟩ | ⟨hc, h⟩
      · exact mem_moments_ite.2 (.inl ⟨hc, ihYes h⟩)
      · exact mem_moments_ite.2 (.inr ⟨hc, ihNo h⟩)
  | same eq script ih => exact ih h
  | untargeted script ih => exact ih h
  | table t steps => exact (opened_of_mem_uses h).2.1 ▸ steps.start_mem_moments μ
  | target t allowed steps => exact (targeted_of_mem_uses h).2.1 ▸ steps.start_mem_moments μ
  | _ => exact absurd h List.not_mem_nil

/-- A use is over when the step is. -/
theorem after_precedes {script : Script T m} (h : u ∈ script.uses μ) {a : α}
    (ht : m.Takes μ a ν) : u.after.Precedes ν := by
  induction script generalizing μ ν with
  | indented levels inner ih =>
      obtain ⟨κ, hm, hκ⟩ := ht.exists_precedes
      exact (ih h hm).trans hκ
  | bind first rest ihFirst ihRest =>
      obtain ⟨a, κ, hfirst, hrest⟩ := takes_bind.1 ht
      rcases mem_uses_bind.1 h with h | ⟨a', κ', hfirst', h⟩
      · exact (ihFirst h hfirst).trans ((rest a).precedes hrest)
      · obtain ⟨rfl, rfl⟩ := hfirst.unique hfirst'
        exact ihRest a h hrest
  | ite yes no ihYes ihNo =>
      rcases mem_uses_ite.1 h with ⟨hc, h⟩ | ⟨hc, h⟩
      · rw [if_pos hc] at ht
        exact ihYes h ht
      · rw [if_neg hc] at ht
        exact ihNo h ht
  | same eq script ih => exact ih h (eq ▸ ht)
  | untargeted script ih => exact ih h ht
  | table t steps =>
      obtain ⟨rfl, rfl, hopened⟩ := opened_of_mem_uses h
      exact (CompileM.Takes.unique hopened ht).2 ▸ .refl _
  | target t allowed steps =>
      obtain ⟨rfl, rfl, htargeted⟩ := targeted_of_mem_uses h
      exact (CompileM.Takes.unique htargeted.2 ht).2 ▸ .refl _
  | _ => exact absurd h List.not_mem_nil

/-- One use at most is made at one place. -/
theorem pairwise_run? {R : TableUse → TableUse → Prop} (use : α × Moment → TableUse) :
    ((m.run? μ).toList.map use).Pairwise R := by
  cases m.run? μ with
  | none => exact .nil
  | some r => exact List.pairwise_singleton ..

/-- The uses in the rest of a step, if it gets there. -/
theorem pairwise_rest {R : TableUse → TableUse → Prop} {rest : ∀ a, Script T (f a)}
    (h : ∀ a ν, ((rest a).uses ν).Pairwise R) :
    ((m.run? μ).toList.flatMap fun r => (rest r.1).uses r.2).Pairwise R := by
  cases m.run? μ with
  | none => exact .nil
  | some r =>
      rw [Option.toList_some, List.flatMap_singleton]
      exact h r.1 r.2

/-- Each use is over before the next begins. -/
theorem pairwise_uses (script : Script T m) (μ : Moment) :
    (script.uses μ).Pairwise fun u w => u.after.Precedes w.before := by
  induction script generalizing μ with
  | indented levels inner ih => exact ih _
  | @bind _ _ _ m _ first rest ihFirst ihRest =>
      refine List.pairwise_append.2 ⟨ihFirst μ, pairwise_rest ihRest, fun u hu w hw => ?_⟩
      obtain ⟨⟨a, ν⟩, hr, hw⟩ := List.mem_flatMap.1 hw
      have ht := run?_eq_some.1 (Option.mem_toList.1 hr)
      exact (after_precedes hu ht).trans (precedes_of_mem_moments (before_mem_moments hw))
  | @ite _ _ c _ _ _ yes no ihYes ihNo =>
      rw [uses]
      split
      · exact ihYes μ
      · exact ihNo μ
  | same eq script ih => exact ih μ
  | untargeted script ih => exact ih μ
  | table t steps => exact pairwise_run? _
  | target t allowed steps => exact pairwise_run? _
  | _ => exact .nil

/-! ### Targets -/

theorem opened_of_untargeted {script : Script (fun _ => False) m} (h : u ∈ script.uses μ) :
    u.Opened :=
  (kind_of_mem_uses h).resolve_right fun hnone => hnone.2

/-- Only the first use may be one of a target. -/
def TargetFirst (script : Script T m) : Prop :=
  ∀ μ, (script.uses μ).Pairwise fun _ w => w.Opened

theorem targetFirst_of_opened {script : Script T m} (h : ∀ μ, ∀ u ∈ script.uses μ, u.Opened) :
    script.TargetFirst := fun μ =>
  List.pairwise_of_forall_mem_list fun _ _ w hw => h μ w hw

theorem TargetFirst.target {t : Table} {allowed : T t} {steps : Script T (compileTarget t)} :
    (Script.target t allowed steps).TargetFirst := fun _ => pairwise_run? _

/-- A step that uses no table may come before. -/
theorem TargetFirst.behind {first : Script T m} {rest : ∀ a, Script T (f a)}
    (hfirst : ∀ μ, first.uses μ = []) (hrest : ∀ a, (rest a).TargetFirst) :
    (Script.bind first rest).TargetFirst := by
  intro μ
  rw [uses, hfirst, List.nil_append]
  exact pairwise_rest hrest

/-- Behind the target there are only tables that are opened. -/
theorem TargetFirst.before {first : Script T m} {rest : ∀ a, Script T (f a)}
    (hfirst : first.TargetFirst) (hrest : ∀ a μ, ∀ u ∈ (rest a).uses μ, u.Opened) :
    (Script.bind first rest).TargetFirst := by
  intro μ
  have hopened : ∀ w ∈ (m.run? μ).toList.flatMap fun r => (rest r.1).uses r.2, w.Opened := by
    intro w hw
    obtain ⟨r, -, hw⟩ := List.mem_flatMap.1 hw
    exact hrest r.1 r.2 w hw
  refine List.pairwise_append.2 ⟨hfirst μ, ?_, fun _ _ w hw => hopened w hw⟩
  exact List.pairwise_of_forall_mem_list fun _ _ w hw => hopened w hw

theorem TargetFirst.ite {c : Prop} [Decidable c] {yes : Script T m} {no : Script T m'}
    (hyes : yes.TargetFirst) (hno : no.TargetFirst) :
    (Script.ite (c := c) yes no).TargetFirst := by
  intro μ
  rw [uses]
  split
  · exact hyes μ
  · exact hno μ

end Script

/-- A statement that changes rows has one target at most, and it comes first. -/
theorem Statement.script_targetFirst {T : Table → Prop} {sub : SubqueryCompiler} {scope : Scope}
    {scripts : ∀ q scope, Script (fun _ => False) (sub q scope)} (st : Statement)
    (allowed : T st.table) : (st.script scope scripts allowed).TargetFirst := by
  cases st with
  | delete s => exact .before .target fun _ _ _ hu => Script.opened_of_untargeted hu
  | update s =>
      refine .ite (fun _ => .nil) (.before .target fun _ _ _ hu => ?_)
      exact Script.opened_of_untargeted hu
  | insert s =>
      exact .ite (fun _ => .nil) (Script.targetFirst_of_opened fun _ _ hu =>
        Script.opened_of_untargeted hu)

theorem Statement.textScript_targetFirst {T : Table → Prop} {scope : Scope} (st : Statement)
    (allowed : T st.table) : (st.textScript scope allowed).TargetFirst :=
  .behind (fun _ => rfl) fun _ => .behind (fun _ => rfl) fun _ =>
    .before (st.script_targetFirst allowed) fun _ _ _ hu => Script.opened_of_untargeted hu

end QueryCompiler
