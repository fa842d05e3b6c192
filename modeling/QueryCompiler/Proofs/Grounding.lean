import QueryCompiler.Proofs.ClauseRule
import QueryCompiler.Proofs.Lookups.Compile

/-! # `QueryCompiler.Proofs.Grounding` — why a query without subqueries can fail

A term is grounded if it makes no columns of its own and holds no subquery.  Every column in what it
builds comes from a row that it is given then, and the rows of a statement are made of columns that
have been registered: those of its tables, however many groupings and derived tables they have gone
through since.  Registrations are never taken back, so such a column is always found.

    what is built                    may fail for
    ---------------------------------------------------
    a column of a row                nothing
    a column that is not found       an unknown column
    a list of values                 being empty
    a grouping                       having no keys
    a projection                     having no outputs

`P` is the property that the reasons are to have.  Terms have to answer for the reasons that they can
give rise to, and nothing else has to be asked of them.
-/

namespace QueryCompiler

open CompileM

variable {P : CompileError → Prop}

/-! ## Terms -/

mutual

/-- The term makes no columns of its own and holds no subquery, and what it may fail for has the
property. -/
inductive ExprTerm.Grounded (P : CompileError → Prop) : ExprTerm → Prop
  | literal {value} : ExprTerm.Grounded P (.literal value)
  | null : ExprTerm.Grounded P .null
  | parameter {name} : ExprTerm.Grounded P (.parameter name)
  | named {row name} : RowTerm.Grounded P row → P (.unknownColumn name) →
      ExprTerm.Grounded P (.named row name)
  | qualified {row table name} : RowTerm.Grounded P row → P (.unknownColumn (table ++ "." ++ name)) →
      ExprTerm.Grounded P (.qualified row table name)
  | field {row index} : RowTerm.Grounded P row → P (.unknownColumn ("#" ++ toString index)) →
      ExprTerm.Grounded P (.field row index)
  | binary {op left right} : ExprTerm.Grounded P left → ExprTerm.Grounded P right →
      ExprTerm.Grounded P (.binary op left right)
  | unary {op operand} : ExprTerm.Grounded P operand → ExprTerm.Grounded P (.unary op operand)
  | compare {op left right} : ExprTerm.Grounded P left → ExprTerm.Grounded P right →
      ExprTerm.Grounded P (.compare op left right)
  | aggregate {func distinct operand} : ExprTerm.Grounded P operand →
      ExprTerm.Grounded P (.aggregate func distinct operand)
  | countStar : ExprTerm.Grounded P .countStar
  | case {condition positive negative} : ExprTerm.Grounded P condition →
      ExprTerm.Grounded P positive → ExprTerm.Grounded P negative →
      ExprTerm.Grounded P (.case condition positive negative)
  | like {value pattern} : ExprTerm.Grounded P value → ExprTerm.Grounded P pattern →
      ExprTerm.Grounded P (.like value pattern)
  | inList {needle values} : ExprTerm.Grounded P needle →
      (∀ value ∈ values, ExprTerm.Grounded P value) →
      (values = [] → P (.unsupportedExpression "InList" "IN list is empty")) →
      ExprTerm.Grounded P (.inList needle values)
  | over {row body} : RowTerm.Grounded P row → ExprTerm.Grounded P body →
      ExprTerm.Grounded P (.over row body)

inductive RowTerm.Grounded (P : CompileError → Prop) : RowTerm → Prop
  | slot {up slot} : RowTerm.Grounded P (.slot up slot)
  | absent : RowTerm.Grounded P .absent
  | tuple {rows} : (∀ row ∈ rows, RowTerm.Grounded P row) → RowTerm.Grounded P (.tuple rows)
  | item {row index} : RowTerm.Grounded P row → RowTerm.Grounded P (.item row index)
  | key {row} : RowTerm.Grounded P row → RowTerm.Grounded P (.key row)
  | source {row} : RowTerm.Grounded P row → RowTerm.Grounded P (.source row)
  | group {key source} : RowTerm.Grounded P key → RowTerm.Grounded P source →
      RowTerm.Grounded P (.group key source)
  | get {name} : RowTerm.Grounded P (.get name)
  | bind {name value body} : RowTerm.Grounded P value → RowTerm.Grounded P body →
      RowTerm.Grounded P (.bind name value body)
  | expr {e} : ExprTerm.Grounded P e → RowTerm.Grounded P (.expr e)

end

/-! ## What they build -/

/-- Where the node itself cannot be written, this has the property; columns have to be known. -/
def Expr.Excused (P : CompileError → Prop) (known : NodeId → Prop) : Expr → Prop
  | .column id _ _ => known id
  | .unknown _ name => P (.unknownColumn name)
  | .inList _ _ [] => P (.unsupportedExpression "InList" "IN list is empty")
  | _ => True

/-- The expression holds no subquery, and every node in it is excused. -/
inductive Expr.Grounded (P : CompileError → Prop) (known : NodeId → Prop) : Expr → Prop
  | mk {e operands} : e.operands? = some operands → e.Excused P known →
      (∀ o ∈ operands, Expr.Grounded P known o) → Expr.Grounded P known e

def GroundedAll (P : CompileError → Prop) (known : NodeId → Prop) (es : List Expr) : Prop :=
  ∀ e ∈ es, e.Grounded P known

section

variable {known known' : NodeId → Prop}

theorem Expr.Excused.mono {e : Expr} (h : e.Excused P known) (hk : ∀ id, known id → known' id) :
    e.Excused P known' := by
  cases e with
  | column id => exact hk id h
  | inList _ _ values => cases values <;> exact h
  | _ => exact h

theorem Expr.Grounded.mono {e : Expr} (h : e.Grounded P known) (hk : ∀ id, known id → known' id) :
    e.Grounded P known' := by
  induction h with
  | mk ho he _ ih => exact .mk ho (he.mono hk) ih

theorem GroundedAll.evolve {ctx ctx' : Context} {es : List Expr}
    (h : GroundedAll P ctx.Registered es) (hctx : ctx.Evolves ctx') :
    GroundedAll P ctx'.Registered es :=
  fun e he => (h e he).mono fun _ hid => hid.evolve hctx

theorem GroundedAll.subset {es es' : List Expr} (h : GroundedAll P known es) (hes : es' ⊆ es) :
    GroundedAll P known es' :=
  fun e he => h e (hes he)

theorem GroundedAll.append {es es' : List Expr} (h : GroundedAll P known es)
    (h' : GroundedAll P known es') : GroundedAll P known (es ++ es') :=
  List.forall_mem_append.2 ⟨h, h'⟩

theorem GroundedAll.cons {e : Expr} {es : List Expr} (h : e.Grounded P known)
    (h' : GroundedAll P known es) : GroundedAll P known (e :: es) :=
  List.forall_mem_cons.2 ⟨h, h'⟩

theorem GroundedAll.nil : GroundedAll P known [] := List.forall_mem_nil _

/-- A new node over grounded operands. -/
theorem Build.Returns.grounded {make : NodeId → Expr} {operands : List Expr}
    (h : GroundedAll P known operands) (ho : ∀ id, (make id).operands? = some operands)
    (he : ∀ id, (make id).Excused P known) :
    Build.Returns (Expr.Grounded P known) (Build.node make) :=
  .node fun id => .mk (ho id) (he id) h

theorem Row.orUnknown_grounded {found : Option Expr} (h : ∀ e ∈ found, e.Grounded P known)
    {name : String} (hname : P (.unknownColumn name)) :
    Build.Returns (Expr.Grounded P known) (Row.orUnknown found name) := by
  cases found with
  | none => exact .grounded .nil (fun _ => rfl) fun _ => hname
  | some e => exact .pure (h e rfl)

mutual

/-- Over grounded rows, a grounded term builds a grounded expression. -/
theorem ExprTerm.eval_grounded : ∀ {t : ExprTerm} {scope : Scope}, t.Grounded P →
    GroundedAll P known (Scope.leaves scope) →
      Build.Returns (Expr.Grounded P known) (t.eval scope)
  | _, _, .literal, _ | _, _, .null, _ | _, _, .parameter, _ | _, _, .countStar, _ =>
      .grounded .nil (fun _ => rfl) fun _ => trivial
  | _, _, .named h hname, hs | _, _, .qualified h hname, hs =>
      (RowTerm.eval_grounded h hs).bind fun _ hr =>
        Row.orUnknown_grounded (fun e he => hr e (Row.mem_of_find? he)) hname
  | _, _, .field h hname, hs => (RowTerm.eval_grounded h hs).bind fun r hr =>
      Row.orUnknown_grounded (fun e he => hr e (r.flatten_subset (List.mem_of_getElem? he))) hname
  | _, _, .unary h, hs | _, _, .aggregate h, hs => (ExprTerm.eval_grounded h hs).bind fun _ ho =>
      .grounded (.cons ho .nil) (fun _ => rfl) fun _ => trivial
  | _, _, .binary h₁ h₂, hs | _, _, .compare h₁ h₂, hs | _, _, .like h₁ h₂, hs =>
      (ExprTerm.eval_grounded h₁ hs).bind fun _ ho₁ => (ExprTerm.eval_grounded h₂ hs).bind fun _ ho₂ =>
        .grounded (.cons ho₁ (.cons ho₂ .nil)) (fun _ => rfl) fun _ => trivial
  | _, _, .case h₁ h₂ h₃, hs =>
      (ExprTerm.eval_grounded h₁ hs).bind fun _ ho₁ => (ExprTerm.eval_grounded h₂ hs).bind fun _ ho₂ =>
        (ExprTerm.eval_grounded h₃ hs).bind fun _ ho₃ =>
          .grounded (.cons ho₁ (.cons ho₂ (.cons ho₃ .nil))) (fun _ => rfl) fun _ => trivial
  | .inList _ values, scope, .inList h₁ h₂ hempty, hs => by
      refine (ExprTerm.eval_grounded h₁ hs).bind fun n hn => ?_
      have hlength := ExprTerm.evalAll_length scope values
      refine ((ExprTerm.evalAll_grounded h₂ hs).and hlength).bind fun vs hvs => ?_
      refine .grounded (.cons hn hvs.1) (fun _ => rfl) fun _ => ?_
      cases vs with
      | nil => exact hempty (List.eq_nil_of_length_eq_zero hvs.2.symm)
      | cons _ _ => trivial
  | _, _, .over h₁ h₂, hs => (RowTerm.eval_grounded h₁ hs).bind fun _ hr =>
      ExprTerm.eval_grounded h₂ (hr.append hs)

theorem ExprTerm.evalAll_grounded : ∀ {ts : List ExprTerm} {scope : Scope},
    (∀ t ∈ ts, t.Grounded P) → GroundedAll P known (Scope.leaves scope) →
      Build.Returns (GroundedAll P known) (ExprTerm.evalAll ts scope)
  | [], _, _, _ => .pure .nil
  | t :: _, _, h, hs => (ExprTerm.eval_grounded (h t List.mem_cons_self) hs).bind fun _ he =>
      (ExprTerm.evalAll_grounded (fun t ht => h t (List.mem_cons_of_mem _ ht)) hs).bind fun _ hes =>
        .pure (.cons he hes)

/-- The same for the expressions of a row. -/
theorem RowTerm.eval_grounded : ∀ {t : RowTerm} {scope : Scope}, t.Grounded P →
    GroundedAll P known (Scope.leaves scope) →
      Build.Returns (fun row => GroundedAll P known row.leaves) (t.eval scope)
  | .slot up slot, scope, .slot, hs => .pure (hs.subset (Scope.slot_subset scope up slot))
  | _, _, .absent, _ => .pure .nil
  | _, _, .tuple h, hs => (RowTerm.evalAll_grounded h hs).bind fun _ hr => .pure hr
  | .item _ index, _, .item h, hs => (RowTerm.eval_grounded h hs).bind fun r hr =>
      .pure (hr.subset (r.item_subset index))
  | _, _, .key h, hs => (RowTerm.eval_grounded h hs).bind fun r hr => .pure (hr.subset r.key_subset)
  | _, _, .source h, hs => (RowTerm.eval_grounded h hs).bind fun r hr =>
      .pure (hr.subset r.source_subset)
  | _, _, .group h₁ h₂, hs => (RowTerm.eval_grounded h₁ hs).bind fun _ hk =>
      (RowTerm.eval_grounded h₂ hs).bind fun _ hr => .pure (hk.append hr)
  | .get name, scope, .get, hs => .pure (hs.subset (Scope.get_subset scope name))
  | _, _, .bind h₁ h₂, hs => (RowTerm.eval_grounded h₁ hs).bind fun _ hr =>
      RowTerm.eval_grounded h₂ (hr.append hs)
  | _, _, .expr h, hs => (ExprTerm.eval_grounded h hs).bind fun _ he => .pure (.cons he .nil)

theorem RowTerm.evalAll_grounded : ∀ {ts : List RowTerm} {scope : Scope},
    (∀ t ∈ ts, t.Grounded P) → GroundedAll P known (Scope.leaves scope) →
      Build.Returns (fun rows => GroundedAll P known (Row.leavesAll rows)) (RowTerm.evalAll ts scope)
  | [], _, _, _ => .pure .nil
  | t :: _, _, h, hs => (RowTerm.eval_grounded (h t List.mem_cons_self) hs).bind fun _ hr =>
      (RowTerm.evalAll_grounded (fun t ht => h t (List.mem_cons_of_mem _ ht)) hs).bind fun _ hrs =>
        .pure (hr.append hrs)

end

end

/-! ## Steps -/

/-- Run from the context, the step fails for a reason with the property, or comes to a result with `Q`
in a context that the first one evolves to. -/
def CompileM.Delivers {α : Type} (P : CompileError → Prop) (ctx : Context) (Q : Context → α → Prop)
    (m : CompileM α) : Prop :=
  ∀ s, (∀ e s', outcome m ctx s = (.error e, s') → P e) ∧
    ∀ a ctx' s', outcome m ctx s = (.ok (a, ctx'), s') → ctx.Evolves ctx' ∧ Q ctx' a

namespace CompileM.Delivers

variable {α β : Type} {ctx : Context} {Q : Context → α → Prop} {R : Context → β → Prop}

theorem mono {Q' : Context → α → Prop} {m : CompileM α} (h : Delivers P ctx Q m)
    (hq : ∀ ctx' a, Q ctx' a → Q' ctx' a) : Delivers P ctx Q' m := fun s =>
  ⟨(h s).1, fun a ctx' s' hok => ⟨((h s).2 a ctx' s' hok).1, hq ctx' a ((h s).2 a ctx' s' hok).2⟩⟩

/-- A step that never fails and changes the context like this. -/
theorem of_outcome {m : CompileM α} {ctx' : Context} (h : ctx.Evolves ctx')
    (hm : ∀ s, ∃ a s', outcome m ctx s = (.ok (a, ctx'), s') ∧ Q ctx' a) : Delivers P ctx Q m := by
  intro s
  obtain ⟨a, s', hrun, hq⟩ := hm s
  rw [hrun]
  constructor
  · intro e s'' he
    cases he
  · intro a' ctx'' s'' hok
    cases hok
    exact ⟨h, hq⟩

theorem pure {a : α} (h : Q ctx a) : Delivers P ctx Q (pure a) :=
  .of_outcome .refl fun s => ⟨a, s, rfl, h⟩

theorem throw {e : CompileError} (h : P e) : Delivers P ctx Q (throw e) := by
  intro s
  refine ⟨fun e' s' he => ?_, fun a ctx' s' hok => (throw_eq_ok.1 hok).elim⟩
  cases he
  exact h

theorem bind {m : CompileM α} {f : α → CompileM β} (hm : Delivers P ctx Q m)
    (hf : ∀ ctx' a, ctx.Evolves ctx' → Q ctx' a → Delivers P ctx' R (f a)) :
    Delivers P ctx R (m >>= f) := by
  intro s
  obtain ⟨hfails, hok⟩ := hm s
  rw [outcome_bind]
  rcases hrun : outcome m ctx s with ⟨e | ⟨a, ctx'⟩, s'⟩
  · refine ⟨fun e' s'' he => ?_, fun a ctx' s'' h => by cases h⟩
    cases he
    exact hfails e s' hrun
  · obtain ⟨hctx, hq⟩ := hok a ctx' s' hrun
    obtain ⟨hfails', hok'⟩ := hf ctx' a hctx hq s'
    refine ⟨hfails', fun b ctx'' s'' h => ?_⟩
    obtain ⟨hctx', hr⟩ := hok' b ctx'' s'' h
    exact ⟨hctx.trans hctx', hr⟩

theorem get : Delivers P ctx (fun _ _ => True) (get : CompileM Context) :=
  .of_outcome .refl fun s => ⟨ctx, s, rfl, trivial⟩

theorem build {b : Build α} {A : α → Prop} (h : Build.Returns A b) :
    Delivers P ctx (fun _ a => A a) (build b) :=
  .of_outcome .refl fun s => ⟨_, _, outcome_build b ctx s, h s.supply⟩

theorem report (event : Event) : Delivers P ctx (fun _ _ => True) (report event) :=
  .of_outcome .refl fun s => ⟨_, _, outcome_report event ctx s, trivial⟩

theorem normalize (q : Query) : Delivers P ctx (fun _ normal => normal = q.normalize) (normalize q) :=
  .of_outcome .refl fun s => by
    obtain ⟨trace, h⟩ := outcome_normalize q ctx s
    exact ⟨_, _, h, rfl⟩

theorem takeAlias : Delivers P ctx (fun _ _ => True) takeAlias :=
  .of_outcome (.takeAlias .refl) fun s => ⟨_, _, outcome_takeAlias ctx s, trivial⟩

theorem bindValue (value : Value) : Delivers P ctx (fun _ _ => True) (bindValue value) :=
  .of_outcome (.bind value .refl) fun s => ⟨_, _, outcome_bindValue value ctx s, trivial⟩

/-- What is registered is known from then on. -/
theorem registerAll (label : String) (fields : List (NodeId × String)) :
    Delivers P ctx (fun ctx' _ => ∀ id ∈ fields.map (·.1), ctx'.Registered id)
      (registerAll label fields) :=
  .of_outcome (.registerAll label fields ctx) fun s =>
    ⟨(), s, rfl, fun _ hid => Context.registered_registerAll.2 (.inl hid)⟩

theorem indented {levels : Nat} {m : CompileM α}
    (hm : Delivers P { ctx with indent := ctx.indent + levels } Q m)
    (hq : ∀ ctx₁ ctx₂ a, ctx₁.Evolves ctx₂ → Q ctx₁ a → Q ctx₂ a) :
    Delivers P ctx Q (indented levels m) := by
  intro s
  obtain ⟨hfails, hok⟩ := hm s
  rw [outcome_indented]
  rcases hrun : outcome m { ctx with indent := ctx.indent + levels } s with ⟨e | ⟨a, ctx'⟩, s'⟩
  · refine ⟨fun e' s'' he => ?_, fun a ctx' s'' h => by cases h⟩
    cases he
    exact hfails e s' hrun
  · refine ⟨fun e' s'' he => (by cases he), fun a' ctx'' s'' h => ?_⟩
    cases h
    obtain ⟨hctx, ha⟩ := hok a ctx' s' hrun
    exact ⟨.indent _ (Context.Evolves.trans (.indent _ .refl) hctx), hq _ _ _ (.indent _ .refl) ha⟩

/-- Only a node that is not registered is looked at. -/
theorem registeredOr {id : NodeId} {own : CompileM Sql.Scalar}
    (h : ¬ ctx.Registered id → Delivers P ctx (fun _ _ => True) own) :
    Delivers P ctx (fun _ _ => True) (registeredOr id own) := by
  intro s
  rw [outcome_registeredOr]
  cases hr : ctx.referenceOf id with
  | some r =>
      have hread : Delivers P ctx (fun _ _ => True)
          (Pure.pure (Sql.Scalar.reference r.qualifier r.field)) := .pure trivial
      exact hread s
  | none =>
      refine h (fun hid => ?_) s
      obtain ⟨p, hp, rfl⟩ := List.mem_map.1 hid
      exact absurd (List.lookup_eq_none_iff.1 hr p hp) (by simp)

/-- The error of a whole compilation has the property. -/
theorem start {m : CompileM α} {d : Dialect} (hm : Delivers P (.empty d) Q m) {s : Session}
    {e : CompileError} (h : (m.start d s).1 = .error e) : P e := by
  rw [start_fst] at h
  rcases hrun : outcome m (.empty d) s with ⟨e' | ⟨a, ctx⟩, s'⟩
  · rw [hrun] at h
    cases h
    exact (hm s).1 e s' hrun
  · rw [hrun] at h
    cases h

end CompileM.Delivers

/-! ## Expressions -/

section

variable {sub : SubqueryCompiler} {ctx : Context}

theorem compileLiteral_delivers (value : Value) :
    Delivers P ctx (fun _ _ => True) (compileLiteral value) := by
  unfold compileLiteral
  split
  · exact .pure trivial
  · exact Delivers.get.bind fun _ _ _ _ => (Delivers.bindValue _).bind fun _ _ _ _ => .pure trivial

theorem Expr.Grounded.children {e : Expr} {known : NodeId → Prop} (h : e.Grounded P known) :
    GroundedAll P known e.children := by
  obtain ⟨ho, -, hall⟩ := h
  exact Expr.children_eq ho ▸ hall

theorem Expr.Grounded.excused {e : Expr} {known : NodeId → Prop} (h : e.Grounded P known) :
    e.Excused P known := by
  obtain ⟨-, he, -⟩ := h
  exact he

theorem CompileM.Delivers.compileAll : ∀ {es : List Expr} {ctx : Context},
    (∀ e ∈ es, ∀ ctx', ctx.Evolves ctx' → Delivers P ctx' (fun _ _ => True) (e.compile sub)) →
      Delivers P ctx (fun _ _ => True) (Expr.compileAll sub es)
  | [], _, _ => .pure trivial
  | _ :: _, ctx, h => by
      rw [List.forall_mem_cons] at h
      refine (h.1 ctx .refl).bind fun ctx₁ _ hctx _ => ?_
      have hes := CompileM.Delivers.compileAll fun e he ctx' hctx' =>
        h.2 e he ctx' (hctx.trans hctx')
      exact hes.bind fun _ _ _ _ => .pure trivial

/-- A grounded expression is written, or fails for a reason with the property. -/
theorem Expr.compile_delivers (e : Expr) {ctx : Context} (h : GroundedAll P ctx.Registered [e]) :
    Delivers P ctx (fun _ _ => True) (e.compile sub) := by
  induction e using Expr.form_induction generalizing ctx with
  | refused hrefused hown =>
      rw [hown]
      have hexcused := (List.forall_mem_singleton.1 h).excused
      cases hrefused with
      | column => exact .registeredOr fun hid => absurd hexcused hid
      | unknown | emptyList => exact .registeredOr fun _ => .throw hexcused
  | bound _ => exact .registeredOr fun _ => compileLiteral_delivers _
  | assembled hmake hown ih =>
      rw [hown]
      obtain ⟨_, _, ha⟩ := hmake.exists
      have hes := (List.forall_mem_singleton.1 h).children.subset ha.subset
      refine .registeredOr fun _ => (CompileM.Delivers.compileAll fun o hmem ctx' hctx =>
        ih o hmem ((hes.evolve hctx).subset (by simpa using hmem))).bind ?_
      exact fun _ _ _ _ => .pure trivial
  | membership _ =>
      obtain ⟨ho, -, -⟩ := List.forall_mem_singleton.1 h
      cases ho

theorem Expr.compileAll_delivers (es : List Expr) {ctx : Context}
    (h : GroundedAll P ctx.Registered es) :
    Delivers P ctx (fun _ _ => True) (Expr.compileAll sub es) :=
  .compileAll fun e he _ hctx => e.compile_delivers ((h.evolve hctx).subset (by simpa using he))

/-! ## Rows -/

/-- A row to go on with: its expressions are grounded, and it has some, unless this is excused. -/
structure Row.Ready (P : CompileError → Prop) (ctx : Context) (row : Row) : Prop where
  leaves : GroundedAll P ctx.Registered row.leaves
  filled : row.flatten = [] → P (.unsupportedShape "Select" "empty projection")

theorem Row.Ready.evolve {row : Row} {ctx' : Context} (h : row.Ready P ctx)
    (hctx : ctx.Evolves ctx') : row.Ready P ctx' :=
  ⟨h.leaves.evolve hctx, h.filled⟩

theorem GroundedAll.clause {known : NodeId → Prop} {row : Row} (h : GroundedAll P known row.leaves) :
    GroundedAll P known (Scope.leaves [.clause row]) :=
  h.append .nil

theorem Table.columnNodes_length (table : String) : ∀ names : List String,
    Build.Returns (fun es => es.length = names.length) (Table.columnNodes table names)
  | [] => .pure rfl
  | _ :: names => by
      refine Build.Returns.bind (P := fun _ => True) (fun _ => trivial) fun e _ => ?_
      exact (columnNodes_length table names).bind fun es hes => .pure (congrArg (· + 1) hes)

/-- Columns that are registered are grounded. -/
theorem GroundedAll.of_columns {columns : List Expr} {names : List String}
    (hcolumns : ∀ e ∈ columns, e.isColumn = true) (hlength : columns.length = names.length)
    (hid : ∀ id ∈ ((columns.map Expr.id).zip names).map (·.1), ctx.Registered id) :
    GroundedAll P ctx.Registered columns := by
  rw [List.map_fst_zip (by simp [hlength])] at hid
  intro e he
  have hknown := hid e.id (List.mem_map_of_mem he)
  have hcolumn := hcolumns e he
  cases e with
  | column => exact .mk rfl hknown (List.forall_mem_nil _)
  | _ => exact absurd hcolumn Bool.false_ne_true

theorem Table.instantiate_columns (t : Table) : Build.Returns (fun es =>
    (∀ e ∈ es, e.isColumn = true) ∧ es.length = t.columns.length) t.instantiate :=
  (Table.columnNodes_isColumn t.name t.columns).and (Table.columnNodes_length t.name t.columns)

theorem compileTable_delivers (t : Table) : Delivers P ctx (fun ctx' r =>
    GroundedAll P ctx'.Registered r.2.leaves ∧ (r.2.flatten = [] → t.columns = []))
      (compileTable t) := by
  refine (Delivers.build t.instantiate_columns).bind fun _ columns _ hcolumns => ?_
  refine Delivers.takeAlias.bind fun _ _ _ _ => (Delivers.registerAll _ _).bind fun _ _ _ hid => ?_
  refine .pure ⟨.of_columns hcolumns.1 hcolumns.2 hid, fun hnil => ?_⟩
  exact List.eq_nil_of_length_eq_zero (hcolumns.2.symm.trans (List.length_eq_zero_iff.2 hnil))

/-! ## Clauses -/

/-- A join of grounded terms that leaves a row with expressions if there were any before. -/
structure JoinTerm.Grounded (P : CompileError → Prop) (join : JoinTerm) : Prop where
  outerKey : join.outerKey.Grounded P
  innerKey : join.innerKey.Grounded P
  result : join.result.Grounded P
  filled : ∀ scope outer inner, Build.Returns (fun row : Row => row.flatten = [] → outer.flatten = [])
    (join.result.evalJoined scope outer inner)

/-- A stage of grounded terms that leaves a row with expressions, unless this is excused. -/
structure RowTerm.GroundedStage (P : CompileError → Prop) (stage : RowTerm) : Prop where
  grounded : stage.Grounded P
  filled : ∀ scope, Build.Returns (fun row : Row => row.flatten = [] →
    P (.unsupportedShape "Select" "empty projection")) (stage.eval scope)

/-- Clauses of grounded terms, without conditions on groups that stand apart. -/
def ClauseRule.grounded (P : CompileError → Prop) : ClauseRule where
  table t := t.columns = [] → P (.unsupportedShape "Select" "empty projection")
  stage := RowTerm.GroundedStage P
  aliases _ := True
  filter := ExprTerm.Grounded P
  sortKey key := key.key.Grounded P
  grouping keys having := (∀ key ∈ keys, ExprTerm.Grounded P key) ∧
    (∀ p ∈ having, ExprTerm.Grounded P p) ∧
    (keys = [] → P (.unsupportedShape "GroupBy" "grouping without keys"))
  having _ := False
  join := JoinTerm.Grounded P
  filter_and h₁ h₂ := .binary h₁ h₂
  grouping_having _ h := h.elim

theorem compileJoin_delivers {join : JoinTerm} (hj : join.Grounded P) {row : Row}
    (hr : row.Ready P ctx) :
    Delivers P ctx (fun ctx' r => r.2.Ready P ctx') (compileJoin sub [] join row) := by
  refine (Delivers.build join.table.instantiate_columns).bind fun _ columns h₁ hcolumns => ?_
  refine Delivers.takeAlias.bind fun _ _ h₂ _ => (Delivers.registerAll _ _).bind fun ctx₃ _ h₃ hid => ?_
  have hr := hr.evolve ((h₁.trans h₂).trans h₃)
  have hinner : GroundedAll P ctx₃.Registered columns := .of_columns hcolumns.1 hcolumns.2 hid
  refine (Delivers.build (ExprTerm.eval_grounded hj.outerKey hr.leaves.clause)).bind
    fun ctx₄ outer h₄ houter => ?_
  refine (outer.compile_delivers ((GroundedAll.cons houter .nil).evolve h₄)).bind
    fun ctx₅ _ h₅ _ => ?_
  have hinner₅ := hinner.evolve (h₄.trans h₅)
  have hside : GroundedAll P ctx₅.Registered (Scope.leaves [.clause (.table join.table columns)]) :=
    hinner₅.append .nil
  refine (Delivers.build (ExprTerm.eval_grounded hj.innerKey hside)).bind fun ctx₆ key h₆ hkey => ?_
  refine (key.compile_delivers ((GroundedAll.cons hkey .nil).evolve h₆)).bind fun ctx₇ _ h₇ _ => ?_
  have hr := hr.evolve (((h₄.trans h₅).trans h₆).trans h₇)
  have hscope : GroundedAll P ctx₇.Registered
      (Scope.leaves [.joined row (.table join.table columns)]) :=
    (hr.leaves.append (hinner₅.evolve (h₆.trans h₇))).append .nil
  refine (Delivers.build ((RowTerm.eval_grounded hj.result hscope).and (hj.filled [] row _))).bind
    fun ctx₈ paired h₈ hpaired => .pure ?_
  exact ⟨GroundedAll.evolve hpaired.1 h₈, fun hnil => hr.filled (hpaired.2 hnil)⟩

theorem compileJoins_delivers : ∀ {joins : List JoinTerm} {ctx : Context} {row : Row},
    (∀ join ∈ joins, join.Grounded P) → row.Ready P ctx →
      Delivers P ctx (fun ctx' r => r.2.Ready P ctx') (compileJoins sub [] joins row)
  | [], _, _, _, hr => .pure hr
  | join :: _, _, _, hj, hr =>
      (compileJoin_delivers (hj join List.mem_cons_self) hr).bind fun _ _ _ hr =>
        (compileJoins_delivers (fun j h => hj j (List.mem_cons_of_mem _ h)) hr).bind
          fun _ _ _ hr => .pure hr

theorem compileJoinClause_delivers {joins : Option (List JoinTerm)} (hsome : joins ≠ some [])
    (hj : ∀ chain ∈ joins, ∀ join ∈ chain, JoinTerm.Grounded P join) {row : Row}
    (hr : row.Ready P ctx) :
    Delivers P ctx (fun ctx' r => r.2.Ready P ctx') (compileJoinClause sub [] joins row) := by
  match joins with
  | none => exact .pure hr
  | some [] => exact absurd rfl hsome
  | some (join :: rest) => exact compileJoins_delivers (hj _ rfl) hr

theorem compileCondition_delivers {predicate : Option ExprTerm}
    (hp : ∀ p ∈ predicate, ExprTerm.Grounded P p) {row : Row} (hr : row.Ready P ctx) :
    Delivers P ctx (fun _ _ => True) (compileCondition sub [] predicate row) := by
  cases predicate with
  | none => exact .pure trivial
  | some p =>
      refine (Delivers.build (ExprTerm.eval_grounded (hp p rfl) hr.leaves.clause)).bind
        fun _ e hctx he => ?_
      exact (e.compile_delivers ((GroundedAll.cons he .nil).evolve hctx)).bind
        fun _ _ _ _ => .pure trivial

/-- The row of a group has its keys, and those of the grouped row stay within reach. -/
theorem compileGrouping_delivers {grouping : Option Grouping}
    (hg : ∀ g ∈ grouping, (ClauseRule.grounded P).grouping g.keys g.having) {row : Row}
    (hr : row.Ready P ctx) :
    Delivers P ctx (fun ctx' r => r.2.2.Ready P ctx') (compileGrouping sub [] grouping row) := by
  cases grouping with
  | none => exact .pure hr
  | some g =>
      obtain ⟨hkeys, hhaving, hnone⟩ := hg g rfl
      refine (Delivers.build ((ExprTerm.evalAll_grounded hkeys hr.leaves.clause).and
        (ExprTerm.evalAll_length _ g.keys))).bind fun ctx₁ keys h₁ hk => ?_
      show Delivers P ctx₁ _ (if keys.isEmpty then _ else _)
      split
      · next hempty =>
          refine .throw (hnone (List.eq_nil_of_length_eq_zero ?_))
          rw [← hk.2, List.isEmpty_iff.1 hempty, List.length_nil]
      · next hsome =>
          have hk₁ := GroundedAll.evolve hk.1 h₁
          refine (Expr.compileAll_delivers keys hk₁).bind fun ctx₂ _ h₂ _ => ?_
          have hr₂ := hr.evolve (h₁.trans h₂)
          refine (compileCondition_delivers hhaving hr₂).bind fun ctx₃ _ h₃ _ => .pure ⟨?_, ?_⟩
          · have hkeys := (hk₁.evolve (h₂.trans h₃)).append (hr₂.leaves.evolve h₃)
            rwa [← Row.leavesAll_map_expr keys] at hkeys
          · intro hnil
            cases keys with
            | nil => exact absurd rfl hsome
            | cons _ _ => cases hnil

theorem compileOrder_delivers {keys : List SortTerm} (hk : ∀ key ∈ keys, key.key.Grounded P)
    {row : Row} (hr : row.Ready P ctx) :
    Delivers P ctx (fun _ _ => True) (compileOrder sub [] keys row) := by
  refine (Delivers.build (ExprTerm.evalAll_grounded (List.forall_mem_map.2 hk)
    hr.leaves.clause)).bind fun _ es hctx hes => ?_
  exact (Expr.compileAll_delivers es (GroundedAll.evolve hes hctx)).bind fun _ _ _ _ => .pure trivial

theorem compileProjection_delivers (given : Option (List String)) {row : Row}
    (hr : row.Ready P ctx) :
    Delivers P ctx (fun _ _ => True) (compileProjection sub given row) := by
  unfold compileProjection
  dsimp only
  split
  · next hempty => exact .throw (hr.filled (List.isEmpty_iff.1 hempty))
  · refine (Expr.compileAll_delivers _ (hr.leaves.subset row.flatten_subset)).bind fun _ _ _ _ => ?_
    have hgiven : ∀ ctx, Delivers P ctx (fun _ _ => True)
        (givenNames given row.flatten.length) := fun ctx => by
      cases given with
      | none => exact .pure trivial
      | some names =>
          show Delivers P ctx _ (if names.length = row.flatten.length then _ else _)
          split
          · exact .pure trivial
          · exact (Delivers.report _).bind fun _ _ _ _ => .pure trivial
    exact (hgiven _).bind fun _ _ _ _ => Delivers.get.bind fun _ _ _ _ => .pure trivial

theorem RowTerm.runStages_ready : ∀ {stages : List RowTerm} {row : Row},
    (∀ stage ∈ stages, stage.GroundedStage P) → row.Ready P ctx →
      Build.Returns (Row.Ready P ctx) (RowTerm.runStages [] stages row)
  | [], _, _, hr => .pure hr
  | stage :: _, _, h, hr => by
      have hstage := h stage List.mem_cons_self
      refine ((RowTerm.eval_grounded hstage.grounded hr.leaves.clause).and
        (hstage.filled _)).bind fun row hrow => ?_
      exact runStages_ready (fun t ht => h t (List.mem_cons_of_mem _ ht)) ⟨hrow.1, hrow.2⟩

theorem compileClauses_delivers {clauses : Clauses} (hc : clauses.Obeys (.grounded P))
    (hsome : clauses.joins ≠ some []) {stages : List RowTerm}
    (hs : ∀ stage ∈ stages, stage.GroundedStage P) (aliases : Option (List String))
    (source : Sql.Source) {row : Row} (hr : row.Ready P ctx) :
    Delivers P ctx (fun ctx' c => c.row.Ready P ctx')
      (compileClauses sub [] clauses stages aliases source row) := by
  refine (compileJoinClause_delivers hsome hc.joins hr).bind fun _ r _ hr => ?_
  refine (compileCondition_delivers hc.filter hr).bind fun _ _ h _ => ?_
  refine (compileGrouping_delivers hc.grouping (hr.evolve h)).bind fun _ r _ hr => ?_
  have horder : ∀ key ∈ clauses.order.getD [], key.key.Grounded P := by
    intro key hkey
    cases ho : clauses.order with
    | none =>
        rw [ho] at hkey
        cases hkey
    | some keys =>
        rw [ho] at hkey
        exact hc.order keys ho key hkey
  refine (compileOrder_delivers horder hr).bind fun _ _ h _ => ?_
  refine (Delivers.build (RowTerm.runStages_ready hs (hr.evolve h))).bind fun _ row h' hr => ?_
  exact (compileProjection_delivers _ (hr.evolve h')).bind fun _ _ h _ =>
    .pure ((hr.evolve h').evolve h)

end

/-! ## Statements -/

mutual

/-- Nothing in the block is in the wrong place: no condition on groups is left over, and every clause
of joins has one. -/
def Block.Whole : Block → Prop
  | .mk _ clauses base _ _ => clauses.joins ≠ some [] ∧ base.Whole

def Base.Whole : Base → Prop
  | .table _ => True
  | .derived block => block.Whole
  | .strayHaving _ => False

end

section

variable {sub : SubqueryCompiler}

mutual

theorem Block.compile_delivers : ∀ {block : Block} {ctx : Context}, block.Obeys (.grounded P) →
    block.Whole → Delivers P ctx (fun ctx' c => c.row.Ready P ctx') (block.compile sub [])
  | .mk _ _ _ _ aliases, _, .mk hc hb hs _, hw =>
      Delivers.get.bind fun _ _ _ _ => (Delivers.report _).bind fun _ _ _ _ =>
        (Base.compile_delivers hb hw.2).bind fun _ r _ hr =>
          compileClauses_delivers hc hw.1 hs aliases r.1 hr

theorem Base.compile_delivers : ∀ {base : Base} {ctx : Context}, base.Obeys (.grounded P) →
    base.Whole → Delivers P ctx (fun ctx' r => r.2.Ready P ctx') (base.compile sub [])
  | .table t, _, .table ht, _ => (compileTable_delivers t).mono fun _ _ h =>
      ⟨h.1, fun hnil => ht (h.2 hnil)⟩
  | .derived block, _, .derived hb, hw => by
      refine ((Block.compile_delivers hb hw).indented
        fun _ _ _ hctx hr => hr.evolve hctx).bind fun _ inner _ hr => ?_
      refine Delivers.takeAlias.bind fun _ _ h _ => (Delivers.registerAll _ _).bind fun _ _ h' _ => ?_
      exact .pure ((hr.evolve h).evolve h')
  | .strayHaving _, _, _, hw => hw.elim

end

end

/-! ## Queries -/

namespace Query

/-- No condition on groups stands apart, and every clause of joins has one. -/
def Whole : Query → Prop
  | .table _ => True
  | .derived inner => inner.Whole
  | .select source _ _ | .filter source _ | .orderBy source _ | .groupBy source _ _ => source.Whole
  | .having _ _ => False
  | .join source joins => joins ≠ [] ∧ source.Whole

theorem Whole.fuseOnce {q : Query} (h : q.Whole) : q.fuseOnce.1.Whole := by
  fun_induction Query.fuseOnce q <;> simp_all [Whole]

theorem Whole.fused {q : Query} : q.Whole → q.fused.Whole := by
  induction q using Query.passes_induction with
  | done q hq =>
      intro h
      rw [Query.fused_of_unchanged hq]
      exact h
  | pass q hq ih =>
      intro h
      rw [Query.fused_of_changed hq]
      exact ih h.fuseOnce

theorem Whole.normalize {q : Query} (h : q.Whole) : q.normalize.Whole := by
  have hf := h.fused
  unfold Query.normalize
  cases hq : q.fused with
  | _ =>
      rw [hq] at hf
      exact hf

def LaidOutWhole (content : Clauses × Base) : Prop := content.1.joins ≠ some [] ∧ content.2.Whole

theorem LaidOutWhole.statement {content : Clauses × Base} (h : LaidOutWhole content) (q : Query)
    (stages : List RowTerm) (aliases : Option (List String)) :
    LaidOutWhole ({}, .derived (.mk q content.1 content.2 stages aliases)) :=
  ⟨Option.some_ne_none _ |>.symm, h⟩

theorem LaidOutWhole.fit {content : Clauses × Base} (h : LaidOutWhole content) (q : Query)
    (here there : Place) : LaidOutWhole (fit here there q content) := by
  unfold Query.fit
  split
  · exact h
  · exact h.statement q [] none

theorem Whole.layout : ∀ {q : Query} (here : Place), q.Whole → LaidOutWhole (q.layout here)
  | .table _, _, _ => ⟨Option.some_ne_none _ |>.symm, trivial⟩
  | .derived inner, _, h => by
      have ih := Whole.layout (q := inner) .order h
      cases inner with
      | select => exact ih
      | _ => exact ih.statement _ [] none
  | .select source stages aliases, _, h =>
      (Whole.layout (q := source) .order h).statement source stages aliases
  | .orderBy source _, here, h => by
      have ih := Whole.layout (q := source) .grouping h
      refine LaidOutWhole.fit ?_ _ here .order
      exact ih
  | .groupBy source _ _, here, h => by
      have ih := Whole.layout (q := source) .filter h
      refine LaidOutWhole.fit ?_ _ here .grouping
      exact ih
  | .filter source _, here, h => by
      have ih := Whole.layout (q := source) .joins h
      refine LaidOutWhole.fit ?_ _ here .filter
      exact ih
  | .join source _, here, h => by
      obtain ⟨-, hbase⟩ := Whole.layout (q := source) .base h.2
      refine LaidOutWhole.fit ?_ _ here .joins
      exact ⟨fun hnil => h.1 (Option.some.inj hnil), hbase⟩
  | .having _ _, _, h => h.elim

theorem Whole.block? {q : Query} (h : q.Whole) {block : Block} (hb : q.block? = some block) :
    block.Whole := by
  cases q with
  | select source =>
      cases hb
      exact Whole.layout (q := source) .order h
  | _ => cases hb

theorem exists_block_rooted (q : Query) : ∃ block, q.rooted.block? = some block := by
  cases q <;> exact ⟨_, rfl⟩

end Query

/-- A query of grounded clauses is compiled, or fails for a reason with the property. -/
theorem Query.compileText_delivers {q : Query} (ho : q.Obeys (.grounded P)) (hw : q.Whole)
    (ctx : Context) : Delivers P ctx (fun _ _ => True) (q.compileText []) := by
  refine Delivers.get.bind fun _ _ _ _ => (Delivers.report _).bind fun _ _ _ _ => ?_
  refine (Delivers.normalize q).bind fun ctx' normal _ hnormal => ?_
  obtain ⟨block, hblock⟩ := exists_block_rooted q.fused
  have hcompile : Delivers P ctx' (fun _ _ => True) (normal.compileIn []) := by
    subst hnormal
    unfold Query.compileIn Query.compile
    rw [Query.normalize, hblock]
    exact (Block.compile_delivers (ho.normalize.block? hblock) (hw.normalize.block? hblock)).mono
      fun _ _ _ => trivial
  exact hcompile.bind fun _ _ _ _ => Delivers.get.bind fun _ _ _ _ =>
    (Delivers.report _).bind fun _ _ _ _ => .pure trivial

end QueryCompiler
