import QueryCompiler.Proofs.Grouping.Renumbering
import QueryCompiler.Proofs.Isolation.Scripts
import QueryCompiler.Proofs.Lookups.Compile

/-! # `QueryCompiler.Proofs.Isolation.Moments` — what is registered is allocated

At every moment that a compilation passes, a registered node is one from before, or one that the
supply has handed out.  The table of aliases is filled from two sides: with the columns of a table,
which have just been built, and with the outputs of a derived table, which are expressions of its
row.  So along with the table of aliases we keep track of the expressions in rows.

    all registered at μ is allocated, expressions of the scope and the row are
    ----------------------------------------------------------------------------
    the same at every moment passed, and of the row that is left

There is one rule for each way in which a script is put together, and one lemma for each script.
-/

namespace QueryCompiler

open CompileM

/-! ## Moments at which all is allocated -/

variable {old : NodeId → Prop} {T : Table → Prop} {α β : Type} {μ ν : Moment}

/-- What is registered is allocated. -/
def Moment.Allocates (old : NodeId → Prop) (μ : Moment) : Prop :=
  ∀ ⦃id⦄, μ.context.Registered id → μ.session.supply.Allocated old id

theorem Moment.Allocates.still (h : μ.Allocates old)
    (haliases : ν.context.aliases = μ.context.aliases)
    (hsupply : μ.session.supply.Precedes ν.session.supply) : ν.Allocates old := fun id hid => by
  rw [Context.Registered, haliases] at hid
  exact (h hid).later hsupply

/-- Carried out at a moment at which all is allocated, the step passes only such moments, and the
expressions in its result are allocated. -/
def Script.Keeps (old : NodeId → Prop) {m : CompileM α} (μ : Moment) (leaves : α → List Expr)
    (script : Script T m) : Prop :=
  μ.Allocates old → (∀ κ ∈ script.moments μ, κ.Allocates old) ∧
    ∀ a ν, m.Takes μ a ν → ν.session.supply.Holds old (leaves a)

namespace Script.Keeps

variable {m m' : CompileM α} {leaves : α → List Expr} {leaves' : β → List Expr}

/-- A primitive step passes its two ends. -/
theorem of_takes {script : Script T m}
    (hmoments : script.moments μ = μ :: (m.run? μ).toList.map (·.2))
    (h : μ.Allocates old → ∀ a ν, m.Takes μ a ν →
      ν.Allocates old ∧ ν.session.supply.Holds old (leaves a)) : script.Keeps old μ leaves := by
  refine fun hμ => ⟨fun κ hκ => ?_, fun a ν ht => (h hμ a ν ht).2⟩
  rw [hmoments] at hκ
  rcases Script.mem_ends.1 hκ with rfl | ⟨a, ht⟩
  · exact hμ
  · exact (h hμ a κ ht).1

theorem pure {a : α} (h : μ.session.supply.Holds old (leaves a)) :
    (Script.pure a : Script T _).Keeps old μ leaves := by
  refine .of_takes rfl fun hμ a' ν ht => ?_
  obtain ⟨rfl, rfl⟩ := takes_pure.1 ht
  exact ⟨hμ, h⟩

theorem throw {e : CompileError} : (Script.throw e : Script T _).Keeps old μ leaves :=
  .of_takes rfl fun _ _ _ ht => (takes_throw.1 ht).elim

theorem get : (Script.get : Script T _).Keeps old μ fun _ => [] := by
  refine .of_takes rfl fun hμ a ν ht => ?_
  obtain ⟨-, rfl⟩ := takes_get.1 ht
  exact ⟨hμ, .nil⟩

theorem build {b : Build α} {onward : b.Onward} (h : b.Draws old μ.session.supply leaves) :
    (Script.build b onward : Script T _).Keeps old μ leaves := by
  refine .of_takes rfl fun hμ a ν ht => ?_
  obtain ⟨rfl, hctx, hs⟩ := takes_build.1 ht
  rw [← hs]
  exact ⟨hμ.still (hctx ▸ rfl) (hs ▸ h.1), h.2⟩

theorem report {event : Event} : (Script.report event : Script T _).Keeps old μ fun _ => [] := by
  refine .of_takes rfl fun hμ a ν ht => ⟨?_, .nil⟩
  obtain ⟨hctx, hs⟩ := report_eq_ok.1 ht
  exact hμ.still (hctx ▸ rfl) (hs ▸ .refl _)

theorem takeAlias : (Script.takeAlias : Script T _).Keeps old μ fun _ => [] := by
  refine .of_takes rfl fun hμ a ν ht => ⟨?_, .nil⟩
  obtain ⟨-, hctx, hs⟩ := takeAlias_eq_ok.1 ht
  exact hμ.still (hctx ▸ rfl) (hs ▸ .refl _)

theorem bindValue {value : Value} :
    (Script.bindValue value : Script T _).Keeps old μ fun _ => [] := by
  refine .of_takes rfl fun hμ a ν ht => ⟨?_, .nil⟩
  obtain ⟨-, rfl⟩ := takes_bindValue.1 ht
  exact hμ.still rfl (.refl _)

theorem registerAll {qualifier : String} {fields : List (NodeId × String)}
    (h : ∀ f ∈ fields, μ.session.supply.Allocated old f.1) :
    (Script.registerAll qualifier fields : Script T _).Keeps old μ fun _ => [] := by
  refine .of_takes rfl fun hμ a ν ht => ⟨fun id hid => ?_, .nil⟩
  obtain ⟨hctx, hs⟩ := registerAll_eq_ok.1 ht
  rw [← hctx] at hid
  rw [← hs]
  rcases Context.registered_registerAll.1 hid with hnew | hold
  · obtain ⟨f, hf, rfl⟩ := List.mem_map.1 hnew
    exact h f hf
  · exact hμ hold

theorem bind {f : α → CompileM β} {first : Script T m} {rest : ∀ a, Script T (f a)}
    (hfirst : first.Keeps old μ leaves)
    (hrest : ∀ a ν, μ.session.supply.Precedes ν.session.supply →
      ν.session.supply.Holds old (leaves a) → (rest a).Keeps old ν leaves') :
    (Script.bind first rest).Keeps old μ leaves' := by
  intro hμ
  have hnext : ∀ a ν, m.Takes μ a ν → _ := fun a ν ht =>
    hrest a ν (first.precedes ht).supply ((hfirst hμ).2 a ν ht)
      ((hfirst hμ).1 ν (first.stop_mem_moments ht))
  constructor
  · intro κ hκ
    rcases Script.mem_moments_bind.1 hκ with hκ | ⟨a, ν, ht, hκ⟩
    · exact (hfirst hμ).1 κ hκ
    · exact (hnext a ν ht).1 κ hκ
  · intro b κ ht
    obtain ⟨a, ν, hfirst, hrest⟩ := takes_bind.1 ht
    exact (hnext a ν hfirst).2 b κ hrest

theorem indented {levels : Nat} {inner : Script T m}
    (h : ∀ ν, μ.session.supply.Precedes ν.session.supply → inner.Keeps old ν leaves) :
    (Script.indented levels inner).Keeps old μ leaves := by
  intro hμ
  have hinner := h (μ.deeper levels) (.refl _) (hμ.still rfl (.refl _))
  constructor
  · intro κ hκ
    rcases Script.mem_moments_indented.1 hκ with rfl | hκ | ⟨a, ht⟩
    · exact hμ
    · exact hinner.1 κ hκ
    · obtain ⟨ξ, hm, haliases, hsession⟩ := ht.exists_indented
      exact (hinner.1 ξ (inner.stop_mem_moments hm)).still haliases.symm (hsession ▸ .refl _)
  · intro a κ ht
    obtain ⟨ξ, hm, -, hsession⟩ := ht.exists_indented
    exact hsession ▸ hinner.2 a ξ hm

theorem ite {c : Prop} [Decidable c] {yes : Script T m} {no : Script T m'}
    (hyes : c → yes.Keeps old μ leaves) (hno : ¬ c → no.Keeps old μ leaves) :
    (Script.ite (c := c) yes no).Keeps old μ leaves := by
  intro hμ
  constructor
  · intro κ hκ
    rcases Script.mem_moments_ite.1 hκ with ⟨hc, hκ⟩ | ⟨hc, hκ⟩
    · exact (hyes hc hμ).1 κ hκ
    · exact (hno hc hμ).1 κ hκ
  · intro a κ ht
    by_cases hc : c
    · rw [if_pos hc] at ht
      exact (hyes hc hμ).2 a κ ht
    · rw [if_neg hc] at ht
      exact (hno hc hμ).2 a κ ht

theorem same {eq : m = m'} {script : Script T m} (h : script.Keeps old μ leaves) :
    (Script.same eq script).Keeps old μ leaves := by
  subst eq
  exact h

theorem untargeted {script : Script (fun _ => False) m} (h : script.Keeps old μ leaves) :
    (Script.untargeted script : Script T m).Keeps old μ leaves := h

theorem table {t : Table} {steps : Script T (compileTable t)} {leaves : Sql.Source × Row → List Expr}
    (h : steps.Keeps old μ leaves) : (Script.table t steps).Keeps old μ leaves := h

theorem target {t : Table} {allowed : T t} {steps : Script T (compileTarget t)}
    {leaves : Row → List Expr} (h : steps.Keeps old μ leaves) :
    (Script.target t allowed steps).Keeps old μ leaves := h

end Script.Keeps

/-! ## The compiler -/

section

variable {s : Supply} {e : Expr} {es : List Expr}

theorem Supply.holds_cons : s.Holds old (e :: es) ↔ s.Holds old [e] ∧ s.Holds old es := by
  simp [Supply.Holds]

/-- The nodes that a node is made of are allocated with it. -/
theorem Supply.Holds.children (h : s.Holds old [e]) : s.Holds old e.children := by
  intro o ho id hid
  have hids : id ∈ e.ids := by
    cases e <;> grind [Expr.children, Expr.operands?, Expr.ids, Expr.mem_idsAll]
  exact h.head id hids

/-- So are those within reach of a subquery's terms. -/
theorem Supply.Holds.captured {id : NodeId} {needle : Expr} {q : Query} {scope : Scope}
    (h : s.Holds old [.inQuery id needle q scope]) : s.Holds old (Scope.leaves scope) :=
  Supply.holds_leaves.2 fun id hid =>
    h.head id (List.mem_cons_of_mem _ (List.mem_append_right _ hid))

end

theorem CompileM.reportPasses.script_keeps : ∀ (number : Nat) (passes : List Query.Pass)
    {μ : Moment}, (script number passes : Script T _).Keeps old μ fun _ => []
  | _, [], _ => .pure .nil
  | number, _ :: passes, _ => Script.Keeps.bind .report fun _ _ _ _ =>
      script_keeps (number + 1) passes

theorem CompileM.normalize.script_keeps (q : Query) :
    (script q : Script T _).Keeps old μ fun _ => [] :=
  Script.Keeps.bind (reportPasses.script_keeps 1 q.passes) fun _ _ _ _ => .pure .nil

/-- A node that is registered is written at once, any other by its own script. -/
theorem registeredOr.script_keeps (id : NodeId) {own : CompileM Sql.Scalar} {ownScript : Script T own}
    (h : ∀ ν, μ.session.supply.Precedes ν.session.supply → ownScript.Keeps old ν fun _ => []) :
    (script id ownScript).Keeps old μ fun _ => [] := by
  have hread : (Script.bind .get fun _ => .pure _ : Script T (CompileM.referenceOf id)).Keeps old μ
      fun _ => [] := .bind .get fun _ _ _ _ => .pure .nil
  refine Script.Keeps.bind hread fun found ν hν _ => ?_
  cases found with
  | some r => exact .pure .nil
  | none => exact h ν hν

theorem compileLiteral.script_keeps (value : Value) :
    (script value : Script T _).Keeps old μ fun _ => [] :=
  .ite (fun _ => .pure .nil) fun _ => .bind .get fun _ _ _ _ => .bind .bindValue fun _ _ _ _ =>
    .pure .nil

theorem requireOneColumn.script_keeps (select : Sql.Select) :
    (script select : Script T _).Keeps old μ fun _ => [] :=
  .ite (fun _ => .pure .nil) fun _ => .throw

/-! ### Sources -/

theorem registerAll_columns_keeps {columns : List Expr} (h : μ.session.supply.Holds old columns)
    (qualifier : String) (names : List String) :
    (Script.registerAll qualifier ((columns.map Expr.id).zip names) : Script T _).Keeps old μ
      fun _ => [] := by
  refine .registerAll fun f hf => ?_
  obtain ⟨c, hc, hid⟩ := List.mem_map.1 (List.of_mem_zip hf).1
  exact hid ▸ h c hc c.id c.id_mem_ids

theorem compileTable.script_keeps (t : Table) :
    (script t : Script T _).Keeps old μ fun r => r.2.leaves := by
  refine .table (.bind (.build (Table.columnNodes_draws t.name t.columns)) fun columns ν _ hc => ?_)
  refine .bind .takeAlias fun label κ hκ _ => ?_
  refine .bind (registerAll_columns_keeps (hc.later hκ) _ _) fun _ ξ hξ _ => ?_
  exact .pure (hc.later (hκ.trans hξ))

theorem compileTarget.script_keeps (t : Table) (allowed : T t) :
    (script t allowed).Keeps old μ Row.leaves := by
  refine .target (.bind (.build (Table.columnNodes_draws t.name t.columns)) fun columns ν _ hc => ?_)
  refine .bind (registerAll_columns_keeps hc _ _) fun _ ξ hξ _ => ?_
  exact .pure (hc.later hξ)

/-- The expressions that a compiled statement leaves to the statement around it. -/
def Compiled.leaves (c : Compiled) : List Expr := c.row.leaves ++ c.fields.map (·.expr)

theorem compileDerived.script_keeps {inner : Compiled} (h : μ.session.supply.Holds old inner.leaves) :
    (script inner : Script T _).Keeps old μ fun r => r.2.leaves := by
  refine Script.Keeps.bind .takeAlias fun label ν hν _ => ?_
  refine .bind (.registerAll fun f hf => ?_) fun _ κ hκ _ => .pure ?_
  · obtain ⟨g, hg, rfl⟩ := List.mem_map.1 hf
    have hmem : g.expr ∈ inner.leaves :=
      List.mem_append_right _ (List.mem_map_of_mem (Field.firstUses_subset [] _ hg))
    exact (h.later hν) g.expr hmem _ g.expr.id_mem_ids
  · exact (h.later (hν.trans hκ)).subset (List.subset_append_left ..)

/-! ### Expressions and clauses -/

/-- The scripts of subqueries register only what is allocated, in scopes whose nodes are. -/
def ScriptsKeep (old : NodeId → Prop) {sub : SubqueryCompiler}
    (scripts : ∀ q scope, Script T (sub q scope)) : Prop :=
  ∀ q scope {μ : Moment}, μ.session.supply.Holds old (Scope.leaves scope) →
    (scripts q scope).Keeps old μ fun _ => []

section

variable {sub : SubqueryCompiler} {scripts : ∀ q scope, Script T (sub q scope)}

mutual

/-- An expression whose nodes are allocated registers only what is allocated. -/
theorem Expr.script_keeps (hscripts : ScriptsKeep old scripts) : ∀ (e : Expr) {μ : Moment},
    μ.session.supply.Holds old [e] → (e.script scripts).Keeps old μ fun _ => []
  | .literal id value, _, _ => registeredOr.script_keeps id fun _ _ =>
      compileLiteral.script_keeps value
  | .null id, _, _ | .parameter id _, _, _ | .countStar id, _, _ =>
      registeredOr.script_keeps id fun _ _ => .pure .nil
  | .column id _ _, _, _ | .unknown id _, _, _ | .inList id _ [], _, _ =>
      registeredOr.script_keeps id fun _ _ => .throw
  | .unary id _ operand, _, h | .aggregate id _ _ operand, _, h =>
      registeredOr.script_keeps id fun _ hν =>
        .bind (operand.script_keeps hscripts (h.children.later hν)) fun _ _ _ _ => .pure .nil
  | .binary id _ left right, μ, h | .like id left right, μ, h => by
      obtain ⟨hl, hr⟩ := Supply.holds_cons.1 h.children
      refine registeredOr.script_keeps id fun ν hν => ?_
      refine .bind (left.script_keeps hscripts (hl.later hν)) fun _ κ hκ _ => ?_
      exact .bind (right.script_keeps hscripts (hr.later (hν.trans hκ))) fun _ _ _ _ => .pure .nil
  | .compare id op left right, μ, h => by
      obtain ⟨hl, hr⟩ := Supply.holds_cons.1 h.children
      refine registeredOr.script_keeps id fun ν hν => ?_
      have hleft := left.script_keeps hscripts (hl.later hν)
      have hright := fun {κ : Moment} hκ => right.script_keeps hscripts (μ := κ) (hr.later (hν.trans hκ))
      -- which operands are written is known once the three tests are
      generalize op.nullTest? = test, left.isNullLiteral = l, right.isNullLiteral = r
      rcases test with - | negated
      · exact .bind hleft fun _ _ hκ _ => .bind (hright hκ) fun _ _ _ _ => .pure .nil
      · cases l <;> cases r
        · exact .bind hleft fun _ _ hκ _ => .bind (hright hκ) fun _ _ _ _ => .pure .nil
        · exact .bind hleft fun _ _ _ _ => .pure .nil
        · exact .bind (hright (.refl _)) fun _ _ _ _ => .pure .nil
        · exact .bind hleft fun _ _ _ _ => .pure .nil
  | .case id condition positive negative, μ, h => by
      obtain ⟨hc, hpn⟩ := Supply.holds_cons.1 h.children
      obtain ⟨hp, hn⟩ := Supply.holds_cons.1 hpn
      refine registeredOr.script_keeps id fun ν hν => ?_
      refine .bind (condition.script_keeps hscripts (hc.later hν)) fun _ κ hκ _ => ?_
      refine .bind (positive.script_keeps hscripts (hp.later (hν.trans hκ))) fun _ ξ hξ _ => ?_
      exact .bind (negative.script_keeps hscripts (hn.later ((hν.trans hκ).trans hξ))) fun _ _ _ _ =>
        .pure .nil
  | .inList id needle (value :: values), μ, h => by
      obtain ⟨hneedle, hvs⟩ := Supply.holds_cons.1 h.children
      obtain ⟨hv, hvs⟩ := Supply.holds_cons.1 hvs
      refine registeredOr.script_keeps id fun ν hν => ?_
      refine .bind (needle.script_keeps hscripts (hneedle.later hν)) fun _ κ hκ _ => ?_
      refine .bind (value.script_keeps hscripts (hv.later (hν.trans hκ))) fun _ ξ hξ _ => ?_
      exact .bind (Expr.scriptAll_keeps hscripts values (hvs.later ((hν.trans hκ).trans hξ)))
        fun _ _ _ _ => .pure .nil
  | .inQuery id needle query scope, μ, h => by
      refine registeredOr.script_keeps id fun ν hν => ?_
      refine .bind (needle.script_keeps hscripts (h.children.later hν)) fun _ κ hκ _ => ?_
      refine .bind (CompileM.normalize.script_keeps query) fun normal ξ hξ _ => ?_
      have hscope := h.captured.later ((hν.trans hκ).trans hξ)
      refine .bind (.indented fun ζ hζ => hscripts normal scope (hscope.later hζ)) fun _ _ _ _ => ?_
      exact .bind (requireOneColumn.script_keeps _) fun _ _ _ _ => .pure .nil

theorem Expr.scriptAll_keeps (hscripts : ScriptsKeep old scripts) : ∀ (es : List Expr) {μ : Moment},
    μ.session.supply.Holds old es → (Expr.scriptAll scripts es).Keeps old μ fun _ => []
  | [], _, _ => .pure .nil
  | e :: es, _, h => by
      obtain ⟨he, hes⟩ := Supply.holds_cons.1 h
      refine .bind (e.script_keeps hscripts he) fun _ ν hν _ => ?_
      exact .bind (Expr.scriptAll_keeps hscripts es (hes.later hν)) fun _ _ _ _ => .pure .nil

end

variable {scope : Scope} (hscripts : ScriptsKeep old scripts)

include hscripts

theorem compileJoin.script_keeps (join : JoinTerm) {row : Row}
    (hs : μ.session.supply.Holds old (Scope.leaves scope))
    (hr : μ.session.supply.Holds old row.leaves) :
    (script scripts scope join row).Keeps old μ fun r => r.2.leaves := by
  refine .same (.bind (compileTable.script_keeps join.table) fun (source, inner) ν hν hi => ?_)
  replace hs := hs.later hν
  replace hr := hr.later hν
  refine .bind (.build (join.outerKey.eval_draws (hr.append hs))) fun outerKey κ hκ ho => ?_
  refine .bind (outerKey.script_keeps hscripts ho) fun _ κ' hκ' _ => ?_
  replace hs := hs.later (hκ.trans hκ')
  replace hr := hr.later (hκ.trans hκ')
  replace hi := hi.later (hκ.trans hκ')
  refine .bind (.build (join.innerKey.eval_draws (hi.append hs))) fun innerKey ξ hξ hk => ?_
  refine .bind (innerKey.script_keeps hscripts hk) fun _ ξ' hξ' _ => ?_
  replace hs := hs.later (hξ.trans hξ')
  replace hr := hr.later (hξ.trans hξ')
  replace hi := hi.later (hξ.trans hξ')
  refine .bind (.build (join.result.eval_draws ((hr.append hi).append hs))) fun row ζ _ hrow => ?_
  exact .pure hrow

theorem compileJoins.script_keeps : ∀ (joins : List JoinTerm) {row : Row} {μ : Moment},
    μ.session.supply.Holds old (Scope.leaves scope) → μ.session.supply.Holds old row.leaves →
      (script scripts scope joins row).Keeps old μ fun r => r.2.leaves
  | [], _, _, _, hr => .pure hr
  | join :: joins, _, _, hs, hr => by
      refine .bind (compileJoin.script_keeps hscripts join hs hr) fun (_, row) ν hν hrow => ?_
      refine .bind (compileJoins.script_keeps joins (hs.later hν) hrow) fun (_, row) κ _ hrow => ?_
      exact .pure hrow

theorem compileJoinClause.script_keeps (joins : Option (List JoinTerm)) {row : Row}
    (hs : μ.session.supply.Holds old (Scope.leaves scope))
    (hr : μ.session.supply.Holds old row.leaves) :
    (script scripts scope joins row).Keeps old μ fun r => r.2.leaves := by
  rcases joins with - | - | ⟨join, joins⟩
  · exact .pure hr
  · exact .throw
  · exact compileJoins.script_keeps hscripts (join :: joins) hs hr

theorem compileCondition.script_keeps (term : Option ExprTerm) {row : Row}
    (hs : μ.session.supply.Holds old (Scope.leaves scope))
    (hr : μ.session.supply.Holds old row.leaves) :
    (script scripts scope term row).Keeps old μ fun _ => [] := by
  cases term with
  | none => exact .pure .nil
  | some term =>
      refine .bind (.build (term.eval_draws (hr.append hs))) fun e ν _ he => ?_
      exact .bind (e.script_keeps hscripts he) fun _ _ _ _ => .pure .nil

theorem compileGrouping.script_keeps (grouping : Option Grouping) {row : Row}
    (hs : μ.session.supply.Holds old (Scope.leaves scope))
    (hr : μ.session.supply.Holds old row.leaves) :
    (script scripts scope grouping row).Keeps old μ fun r => r.2.2.leaves := by
  cases grouping with
  | none => exact .pure hr
  | some grouping =>
      refine .bind (.build (ExprTerm.evalAll_draws grouping.keys (hr.append hs)))
        fun keys ν hν hk => .ite (fun _ => .throw) fun _ => ?_
      refine .bind (Expr.scriptAll_keeps hscripts keys hk) fun _ κ hκ _ => ?_
      refine .bind (compileCondition.script_keeps hscripts grouping.having
        (hs.later (hν.trans hκ)) (hr.later (hν.trans hκ))) fun _ ξ hξ _ => .pure ?_
      have hkeys : ξ.session.supply.Holds old (Row.leavesAll (keys.map .expr)) := by
        rw [Row.leavesAll_map_expr]
        exact hk.later (hκ.trans hξ)
      exact hkeys.append (hr.later ((hν.trans hκ).trans hξ))

theorem compileOrder.script_keeps (keys : List SortTerm) {row : Row}
    (hs : μ.session.supply.Holds old (Scope.leaves scope))
    (hr : μ.session.supply.Holds old row.leaves) :
    (script scripts scope keys row).Keeps old μ fun _ => [] := by
  refine .bind (.build (ExprTerm.evalAll_draws _ (hr.append hs))) fun es ν _ hes => ?_
  exact .bind (Expr.scriptAll_keeps hscripts es hes) fun _ _ _ _ => .pure .nil

omit hscripts in
theorem givenNames.script_keeps (given : Option (List String)) (width : Nat) :
    (script given width : Script T _).Keeps old μ fun _ => [] := by
  cases given with
  | none => exact .pure .nil
  | some names =>
      exact .ite (fun _ => .pure .nil) fun _ => .bind .report fun _ _ _ _ => .pure .nil

theorem compileProjection.script_keeps (given : Option (List String)) {row : Row}
    (hr : μ.session.supply.Holds old row.leaves) :
    (script scripts given row).Keeps old μ fun r => r.2.map (·.expr) := by
  refine .ite (fun _ => .throw) fun _ => ?_
  have hes := hr.subset row.flatten_subset
  refine .bind (Expr.scriptAll_keeps hscripts row.flatten hes) fun _ ν hν _ => ?_
  refine .bind (givenNames.script_keeps given _) fun _ κ hκ _ => ?_
  refine .bind .get fun ctx ξ hξ _ => .pure ((hes.later ((hν.trans hκ).trans hξ)).subset ?_)
  intro e he
  obtain ⟨f, hf, rfl⟩ := List.mem_map.1 he
  obtain ⟨i, hi, rfl⟩ := List.mem_iff_getElem.1 hf
  rw [List.getElem_zipWith]
  exact List.getElem_mem _

theorem compileClauses.script_keeps (clauses : Clauses) (stages : List RowTerm)
    (aliases : Option (List String)) (source : Sql.Source) {row : Row}
    (hs : μ.session.supply.Holds old (Scope.leaves scope))
    (hr : μ.session.supply.Holds old row.leaves) :
    (script scripts scope clauses stages aliases source row).Keeps old μ Compiled.leaves := by
  refine .bind (compileJoinClause.script_keeps hscripts clauses.joins hs hr)
    fun (_, row) ν₁ h₁ hr => ?_
  replace hs := hs.later h₁
  refine .bind (compileCondition.script_keeps hscripts clauses.filter hs hr) fun _ ν₂ h₂ _ => ?_
  replace hs := hs.later h₂
  refine .bind (compileGrouping.script_keeps hscripts clauses.grouping hs (hr.later h₂))
    fun (_, _, row) ν₃ h₃ hr => ?_
  replace hs := hs.later h₃
  refine .bind (compileOrder.script_keeps hscripts (clauses.order.getD []) hs hr)
    fun _ ν₄ h₄ _ => ?_
  refine .bind (.build (RowTerm.runStages_draws stages (hs.later h₄) (hr.later h₄)))
    fun row ν₅ _ hr => ?_
  refine .bind (compileProjection.script_keeps hscripts _ hr) fun (_, fields) ν₆ h₆ hf => ?_
  exact .pure ((hr.later h₆).append hf)

end

section

variable {sub : SubqueryCompiler} {scripts : ∀ q scope, Script T (sub q scope)} {scope : Scope}

mutual

/-- A block, compiled in a scope whose nodes are allocated, registers only what is allocated. -/
theorem Block.script_keeps (hscripts : ScriptsKeep old scripts) : ∀ (block : Block) {μ : Moment},
    μ.session.supply.Holds old (Scope.leaves scope) →
      (block.script scripts scope).Keeps old μ Compiled.leaves
  | .mk _ clauses base stages aliases, _, hs => by
      refine .bind .get fun _ ν hν _ => .bind .report fun _ κ hκ _ => ?_
      replace hs := hs.later (hν.trans hκ)
      refine .bind (base.script_keeps hscripts hs) fun (source, row) ξ hξ hr => ?_
      exact compileClauses.script_keeps hscripts clauses stages aliases source (hs.later hξ) hr

theorem Base.script_keeps (hscripts : ScriptsKeep old scripts) : ∀ (base : Base) {μ : Moment},
    μ.session.supply.Holds old (Scope.leaves scope) →
      (base.script scripts scope).Keeps old μ fun r => r.2.leaves
  | .table t, _, _ => compileTable.script_keeps t
  | .derived block, _, hs => .bind (.indented fun _ hν => block.script_keeps hscripts (hs.later hν))
      fun _ _ _ hinner => compileDerived.script_keeps hinner
  | .strayHaving _, _, _ => .throw

end

theorem Query.script_keeps (hscripts : ScriptsKeep old scripts) (q : Query)
    (hs : μ.session.supply.Holds old (Scope.leaves scope)) :
    (q.script scripts scope).Keeps old μ Compiled.leaves := by
  unfold Query.script
  split
  · next block h => exact .same (block.script_keeps hscripts hs)
  · exact .same .throw

end

theorem compileWithin.script_keeps : ∀ (depth : Nat) (q : Query) (scope : Scope) {μ : Moment},
    μ.session.supply.Holds old (Scope.leaves scope) →
      (script depth q scope : Script T _).Keeps old μ fun _ => []
  | 0, _, _, _, _ => .throw
  | depth + 1, q, _, _, hs => .bind (q.script_keeps (compileWithin.script_keeps depth) hs)
      fun _ _ _ _ => .pure .nil

/-! ### Statements that change rows and entry points -/

section

variable {scope : Scope} (hs : μ.session.supply.Holds old (Scope.leaves scope))

theorem compileAssignments.script_keeps {depth : Nat} (t : Table) {row : Row} :
    ∀ {assignments : List (String × Assigned)} {μ : Moment},
      μ.session.supply.Holds old (Scope.leaves scope) → μ.session.supply.Holds old row.leaves →
      (∀ a ∈ assignments, ∀ id ∈ a.2.ids, μ.session.supply.Allocated old id) →
        (script (compileWithin.script depth) scope t row assignments : Script T _).Keeps old μ
          fun _ => []
  | [], _, _, _, _ => .pure .nil
  | (column, value) :: rest, _, hs, hr, ha => by
      obtain ⟨hvalue, hrest⟩ := List.forall_mem_cons.1 ha
      have hcolumn : ∀ {ν : Moment}, (requireColumn.script t column : Script T _).Keeps old ν
          fun _ => [] := .ite (fun _ => .pure .nil) fun _ => .throw
      refine .bind hcolumn fun _ ν hν _ => ?_
      refine .bind (.build (value.build_draws (hs.later hν) (hr.later hν)
        fun id hid => (hvalue id hid).later hν)) fun e κ hκ he => ?_
      refine .bind (e.script_keeps (compileWithin.script_keeps depth) he) fun _ ξ hξ _ => ?_
      have hall := (hν.trans hκ).trans hξ
      refine .bind (script_keeps t (hs.later hall) (hr.later hall)
        fun a ha id hid => (hrest a ha id hid).later hall) fun _ _ _ _ => .pure .nil

include hs

theorem Statement.script_keeps {depth : Nat} (st : Statement) (allowed : T st.table)
    (hst : ∀ id ∈ st.ids, μ.session.supply.Allocated old id) :
    (st.script scope (compileWithin.script depth) allowed).Keeps old μ fun _ => [] := by
  have hsub := @compileWithin.script_keeps old (fun _ => False) depth
  cases st with
  | delete s =>
      refine .bind (compileTarget.script_keeps s.table allowed) fun row ν hν hr => .untargeted ?_
      exact .bind (compileCondition.script_keeps hsub _ (hs.later hν) hr) fun _ _ _ _ => .pure .nil
  | update s =>
      refine .ite (fun _ => .throw) fun _ => ?_
      refine .bind (compileTarget.script_keeps s.table allowed) fun row ν hν hr => .untargeted ?_
      refine .bind (compileAssignments.script_keeps s.table (hs.later hν) hr
        fun a ha id hid => ?_) fun _ κ hκ _ => ?_
      · exact (hst id (List.mem_flatMap.2 ⟨a, ha, hid⟩)).later hν
      · exact .bind (compileCondition.script_keeps hsub _ (hs.later (hν.trans hκ)) (hr.later hκ))
          fun _ _ _ _ => .pure .nil
  | insert s =>
      refine .ite (fun _ => .throw) fun _ => .untargeted ?_
      refine .bind (compileAssignments.script_keeps s.table hs .nil fun a ha id hid => ?_)
        fun _ _ _ _ => .pure .nil
      obtain ⟨value, hvalue, rfl⟩ := List.mem_map.1 ha
      exact hst id (List.mem_flatMap.2 ⟨value, hvalue, hid⟩)

theorem Query.textScript_keeps (q : Query) :
    (q.textScript scope : Script T _).Keeps old μ fun _ => [] := by
  refine .bind .get fun _ ν₁ h₁ _ => .bind .report fun _ ν₂ h₂ _ => ?_
  refine .bind (CompileM.normalize.script_keeps q) fun normal ν₃ h₃ _ => ?_
  refine .bind (normal.script_keeps (compileWithin.script_keeps _)
    (hs.later ((h₁.trans h₂).trans h₃))) fun _ _ _ _ => ?_
  exact .bind .get fun _ _ _ _ => .bind .report fun _ _ _ _ => .pure .nil

theorem ScalarQuery.textScript_keeps (q : ScalarQuery) :
    (q.textScript scope : Script T _).Keeps old μ fun _ => [] :=
  .bind .get fun _ _ h₁ _ => .bind .report fun _ _ h₂ _ =>
    q.toQuery.textScript_keeps (hs.later (h₁.trans h₂))

theorem Statement.textScript_keeps (st : Statement) (allowed : T st.table)
    (hst : ∀ id ∈ st.ids, μ.session.supply.Allocated old id) :
    (st.textScript scope allowed).Keeps old μ fun _ => [] := by
  refine .bind .get fun _ ν₁ h₁ _ => .bind .report fun _ ν₂ h₂ _ => ?_
  have h₁₂ := h₁.trans h₂
  refine .bind (st.script_keeps (hs.later h₁₂) allowed fun id hid => (hst id hid).later h₁₂)
    fun _ _ _ _ => .untargeted ?_
  exact .bind .get fun _ _ _ _ => .bind .report fun _ _ _ _ => .pure .nil

end

end QueryCompiler
