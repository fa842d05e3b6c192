import QueryCompiler.Proofs.Building
import QueryCompiler.Proofs.Forms
import QueryCompiler.Proofs.Outputs
import QueryCompiler.Proofs.Scoping.Ledger
import QueryCompiler.Proofs.Scoping.References

/-! # `QueryCompiler.Proofs.Redirection` — what a subquery leaves behind

Expressions are compiled in the context of the statement at hand, and so are their subqueries: a
subquery registers its own sources in the same context, and nothing takes them out again.  What it
does to nodes that were registered before is said here.  The columns of a table are new nodes, so
registering them changes nothing for others.  A derived table takes over the nodes that it projects;
if one of them comes from outside, because the subquery refers to a row of the enclosing statement,
that node is from then on read from inside the subquery.

    m redirects to fs    f a redirects to gs
    ----------------------------------------
    m >>= f   redirects to fs ++ gs

The fields that nodes can be redirected to are those of the derived tables in the tree that is
returned, and the aliases of these tables were given out on the way.
-/

namespace QueryCompiler

/-! ## Fields of derived tables -/

namespace Sql

mutual

/-- The output columns of the derived tables inside an expression, under their aliases. -/
def Scalar.derivedFields : Scalar → List Reference
  | .reference .. | .bound _ | .named _ | .null | .countStar => []
  | .binary _ left right => left.derivedFields ++ right.derivedFields
  | .unary _ operand => operand.derivedFields
  | .compare _ left right => left.derivedFields ++ right.derivedFields
  | .nullTest _ operand => operand.derivedFields
  | .aggregate _ _ operand => operand.derivedFields
  | .case condition positive negative =>
    condition.derivedFields ++ (positive.derivedFields ++ negative.derivedFields)
  | .like value pattern => value.derivedFields ++ pattern.derivedFields
  | .inList needle values => needle.derivedFields ++ Scalar.derivedFieldsAll values
  | .inSelect needle select => needle.derivedFields ++ select.derivedFields

def Scalar.derivedFieldsAll : List Scalar → List Reference
  | [] => []
  | e :: es => e.derivedFields ++ Scalar.derivedFieldsAll es

def Scalar.derivedFieldsOption : Option Scalar → List Reference
  | none => []
  | some e => e.derivedFields

def Output.derivedFieldsAll : List Output → List Reference
  | [] => []
  | .mk value _ :: outputs => value.derivedFields ++ Output.derivedFieldsAll outputs

def Source.derivedFields : Source → List Reference
  | .table .. => []
  | .derived select label => select.derivedFields ++ select.outputs.map (⟨label, ·.name⟩)

def Join.derivedFieldsAll : List Join → List Reference
  | [] => []
  | .mk _ _ _ outer inner :: joins =>
    outer.derivedFields ++ (inner.derivedFields ++ Join.derivedFieldsAll joins)

def OrderItem.derivedFieldsAll : List OrderItem → List Reference
  | [] => []
  | .mk key _ :: items => key.derivedFields ++ OrderItem.derivedFieldsAll items

/-- The output columns of the derived tables inside a statement, in the order of compilation. -/
def Select.derivedFields : Select → List Reference
  | .mk outputs source joins filter keys having order =>
    source.derivedFields ++ (Join.derivedFieldsAll joins ++
      (Scalar.derivedFieldsOption filter ++ (Scalar.derivedFieldsAll keys ++
        (Scalar.derivedFieldsOption having ++ (OrderItem.derivedFieldsAll order ++
          Output.derivedFieldsAll outputs)))))

end

theorem OrderItem.derivedFieldsAll_zipWith : ∀ {sqls : List Scalar} {keys : List SortTerm},
    sqls.length = keys.length → OrderItem.derivedFieldsAll
      (List.zipWith (fun sql key => .mk sql key.direction) sqls keys) =
        Scalar.derivedFieldsAll sqls
  | [], _, _ => rfl
  | sql :: _, _ :: _, h =>
      congrArg (sql.derivedFields ++ ·) (derivedFieldsAll_zipWith (Nat.succ.inj h))

theorem Output.derivedFieldsAll_zipWith : ∀ {sqls : List Scalar} {names : List String},
    sqls.length = names.length →
      Output.derivedFieldsAll (List.zipWith .mk sqls names) = Scalar.derivedFieldsAll sqls
  | [], _, _ => rfl
  | sql :: _, _ :: _, h =>
      congrArg (sql.derivedFields ++ ·) (derivedFieldsAll_zipWith (Nat.succ.inj h))

end Sql

/-! ## New nodes -/

section

variable (old : NodeId → Prop)

/-- None of the old nodes is handed out any more. -/
def Supply.Avoids (s : Supply) : Prop := ∀ n, s.used ≤ n → ¬ old (s.ids n)

/-- From a supply that avoids the old nodes the computation comes to one that does, and to a result
with `P`. -/
def Build.Avoids {α : Type} (P : α → Prop) (b : Build α) : Prop :=
  ∀ s : Supply, s.Avoids old → (b s).2.Avoids old ∧ P (b s).1

end

variable {old : NodeId → Prop}

namespace Build.Avoids

variable {α β : Type} {P : α → Prop} {Q : β → Prop}

theorem pure {a : α} (h : P a) : Build.Avoids old P (pure a) := fun _ hs => ⟨hs, h⟩

theorem bind {b : Build α} {f : α → Build β} (hb : Build.Avoids old P b)
    (hf : ∀ a, P a → Build.Avoids old Q (f a)) : Build.Avoids old Q (b >>= f) := fun s hs =>
  hf _ (hb s hs).2 _ (hb s hs).1

theorem node {make : NodeId → α} (h : ∀ id, ¬ old id → P (make id)) :
    Build.Avoids old P (Build.node make) := fun _ hs =>
  ⟨fun n hn => hs n (Nat.le_of_succ_le hn), h _ (hs _ (Nat.le_refl _))⟩

/-- Most of the time it does not matter what is built. -/
theorem anyNode (make : NodeId → α) : Build.Avoids old (fun _ => True) (Build.node make) :=
  .node fun _ _ => trivial

theorem orUnknown (found : Option Expr) (name : String) :
    Build.Avoids old (fun _ => True) (Row.orUnknown found name) := by
  cases found with
  | some e => exact .pure trivial
  | none => exact .anyNode _

end Build.Avoids

/-- The columns of a table are new nodes. -/
theorem Table.columnNodes_avoids (table : String) : ∀ names : List String,
    Build.Avoids old (fun columns => ∀ c ∈ columns, ¬ old c.id) (Table.columnNodes table names)
  | [] => .pure (by simp)
  | name :: names => by
      refine Build.Avoids.bind (P := fun c => ¬ old c.id) (.node fun _ h => h) fun c hc => ?_
      refine (Table.columnNodes_avoids table names).bind fun cs hcs => .pure ?_
      exact List.forall_mem_cons.2 ⟨hc, hcs⟩

mutual

theorem ExprTerm.eval_avoids : ∀ (t : ExprTerm) (scope : Scope),
    Build.Avoids old (fun _ => True) (t.eval scope)
  | .literal _, _ | .null, _ | .column .., _ | .parameter _, _ | .countStar, _ => .anyNode _
  | .named row _, scope | .qualified row _ _, scope | .field row _, scope =>
      (RowTerm.eval_avoids row scope).bind fun _ _ => .orUnknown _ _
  | .binary _ left right, scope | .compare _ left right, scope | .like left right, scope =>
      (ExprTerm.eval_avoids left scope).bind fun _ _ =>
        (ExprTerm.eval_avoids right scope).bind fun _ _ => .anyNode _
  | .unary _ operand, scope | .aggregate _ _ operand, scope =>
      (ExprTerm.eval_avoids operand scope).bind fun _ _ => .anyNode _
  | .case condition positive negative, scope =>
      (ExprTerm.eval_avoids condition scope).bind fun _ _ =>
        (ExprTerm.eval_avoids positive scope).bind fun _ _ =>
          (ExprTerm.eval_avoids negative scope).bind fun _ _ => .anyNode _
  | .inList needle values, scope =>
      (ExprTerm.eval_avoids needle scope).bind fun _ _ =>
        (ExprTerm.evalAll_avoids values scope).bind fun _ _ => .anyNode _
  | .inQuery needle _, scope =>
      (ExprTerm.eval_avoids needle scope).bind fun _ _ => .anyNode _
  | .over row body, scope =>
      (RowTerm.eval_avoids row scope).bind fun _ _ => ExprTerm.eval_avoids body _

theorem ExprTerm.evalAll_avoids : ∀ (ts : List ExprTerm) (scope : Scope),
    Build.Avoids old (fun _ => True) (ExprTerm.evalAll ts scope)
  | [], _ => .pure trivial
  | t :: ts, scope =>
      (ExprTerm.eval_avoids t scope).bind fun _ _ =>
        (ExprTerm.evalAll_avoids ts scope).bind fun _ _ => .pure trivial

theorem RowTerm.eval_avoids : ∀ (t : RowTerm) (scope : Scope),
    Build.Avoids old (fun _ => True) (t.eval scope)
  | .slot .., _ | .absent, _ | .get _, _ => .pure trivial
  | .tuple rows, scope => (RowTerm.evalAll_avoids rows scope).bind fun _ _ => .pure trivial
  | .item row _, scope | .key row, scope | .source row, scope =>
      (RowTerm.eval_avoids row scope).bind fun _ _ => .pure trivial
  | .group key source, scope =>
      (RowTerm.eval_avoids key scope).bind fun _ _ =>
        (RowTerm.eval_avoids source scope).bind fun _ _ => .pure trivial
  | .table t, _ => (Table.columnNodes_avoids t.name t.columns).bind fun _ _ => .pure trivial
  | .bind _ value body, scope =>
      (RowTerm.eval_avoids value scope).bind fun _ _ => RowTerm.eval_avoids body _
  | .expr e, scope => (ExprTerm.eval_avoids e scope).bind fun _ _ => .pure trivial

theorem RowTerm.evalAll_avoids : ∀ (ts : List RowTerm) (scope : Scope),
    Build.Avoids old (fun _ => True) (RowTerm.evalAll ts scope)
  | [], _ => .pure trivial
  | t :: ts, scope =>
      (RowTerm.eval_avoids t scope).bind fun _ _ =>
        (RowTerm.evalAll_avoids ts scope).bind fun _ _ => .pure trivial

end

theorem RowTerm.runStages_avoids (scope : Scope) : ∀ (stages : List RowTerm) (row : Row),
    Build.Avoids old (fun _ => True) (RowTerm.runStages scope stages row)
  | [], _ => .pure trivial
  | stage :: stages, _ =>
      (RowTerm.eval_avoids stage _).bind fun _ _ => RowTerm.runStages_avoids scope stages _

/-! ## Contexts -/

/-- Old nodes are read from where they were, or from one of the fields, whose aliases have been given
out since. -/
structure Context.Redirects (old : NodeId → Prop) (ctx : Context) (fields : List Reference)
    (ctx' : Context) : Prop where
  nextAlias_le : ctx.nextAlias ≤ ctx'.nextAlias
  labels : ∀ r ∈ fields, ∃ k, ctx.nextAlias ≤ k ∧ k < ctx'.nextAlias ∧
    r.qualifier = Context.aliasName k
  read : ∀ id, old id → ctx'.referenceOf id = ctx.referenceOf id ∨
    ∃ r ∈ fields, ctx'.referenceOf id = some r

namespace Context.Redirects

variable {ctx ctx₁ ctx₂ : Context} {fs gs : List Reference}

theorem trans (h : ctx.Redirects old fs ctx₁) (h' : ctx₁.Redirects old gs ctx₂) :
    ctx.Redirects old (fs ++ gs) ctx₂ where
  nextAlias_le := Nat.le_trans h.nextAlias_le h'.nextAlias_le
  labels r hr := by
    rcases List.mem_append.1 hr with hr | hr
    · obtain ⟨k, hle, hlt, hq⟩ := h.labels r hr
      exact ⟨k, hle, Nat.lt_of_lt_of_le hlt h'.nextAlias_le, hq⟩
    · obtain ⟨k, hle, hlt, hq⟩ := h'.labels r hr
      exact ⟨k, Nat.le_trans h.nextAlias_le hle, hlt, hq⟩
  read id hid := by
    rcases h'.read id hid with hread' | ⟨r, hr, hread⟩
    · rcases h.read id hid with hread | ⟨r, hr, hread⟩
      · exact .inl (hread'.trans hread)
      · exact .inr ⟨r, List.mem_append_left _ hr, hread'.trans hread⟩
    · exact .inr ⟨r, List.mem_append_right _ hr, hread⟩

/-- Nothing is registered for an old node. -/
theorem unread (hle : ctx.nextAlias ≤ ctx₁.nextAlias)
    (h : ∀ id, old id → ctx₁.referenceOf id = ctx.referenceOf id) : ctx.Redirects old [] ctx₁ :=
  ⟨hle, by simp, fun id hid => .inl (h id hid)⟩

end Context.Redirects

theorem Context.nextAlias_registerAll (qualifier : String) : ∀ (fields : List (NodeId × String))
    (ctx : Context), (ctx.registerAll qualifier fields).nextAlias = ctx.nextAlias
  | [], _ => rfl
  | (_, _) :: fields, _ => nextAlias_registerAll qualifier fields _

/-! ## Steps -/

/-- The step redirects old nodes to fields that `A` relates to what it returns. -/
def CompileM.Redirects (old : NodeId → Prop) {α : Type} (A : List Reference → α → Prop)
    (m : CompileM α) : Prop :=
  ∀ (ctx : Context) (s : Session) (a : α) (ctx' : Context) (s' : Session), s.supply.Avoids old →
    outcome m ctx s = (.ok (a, ctx'), s') →
      s'.supply.Avoids old ∧ ∃ fields, ctx.Redirects old fields ctx' ∧ A fields a

namespace CompileM.Redirects

variable {α β : Type} {A B : List Reference → α → Prop}

/-- A step that registers nothing for an old node. -/
theorem silent {m : CompileM α} {P : α → Prop}
    (h : ∀ (ctx : Context) (s : Session) (a : α) (ctx' : Context) (s' : Session),
      s.supply.Avoids old → outcome m ctx s = (.ok (a, ctx'), s') →
        s'.supply.Avoids old ∧ ctx.Redirects old [] ctx' ∧ P a) :
    Redirects old (fun fs a => fs = [] ∧ P a) m := by
  intro ctx s a ctx' s' hs hm
  obtain ⟨hs', hctx, ha⟩ := h ctx s a ctx' s' hs hm
  exact ⟨hs', [], hctx, rfl, ha⟩

theorem pure {a : α} (h : A [] a) : Redirects old A (pure a) := by
  intro ctx s a' ctx' s' hs hm
  obtain ⟨rfl, rfl, rfl⟩ := pure_eq_ok.1 hm
  exact ⟨hs, [], .unread (Nat.le_refl _) fun _ _ => rfl, h⟩

theorem throw (e : CompileError) : Redirects old A (throw e) := fun _ _ _ _ _ _ hm =>
  (throw_eq_ok.1 hm).elim

/-- The fields of two steps follow on each other. -/
theorem bind {m : CompileM α} {f : α → CompileM β} {B : List Reference → β → Prop}
    (hm : Redirects old A m)
    (hf : ∀ fs a, A fs a → Redirects old (fun gs b => B (fs ++ gs) b) (f a)) :
    Redirects old B (m >>= f) := by
  intro ctx s b ctx' s' hs hmf
  obtain ⟨a, ctx₁, s₁, h₁, h₂⟩ := bind_eq_ok.1 hmf
  obtain ⟨hs₁, fs, hfs, ha⟩ := hm ctx s a ctx₁ s₁ hs h₁
  obtain ⟨hs', gs, hgs, hb⟩ := hf fs a ha ctx₁ s₁ b ctx' s' hs₁ h₂
  exact ⟨hs', fs ++ gs, hfs.trans hgs, hb⟩

theorem mono {m : CompileM α} (hm : Redirects old A m) (h : ∀ fs a, A fs a → B fs a) :
    Redirects old B m := by
  intro ctx s a ctx' s' hs hok
  obtain ⟨hs', fs, hfs, ha⟩ := hm ctx s a ctx' s' hs hok
  exact ⟨hs', fs, hfs, h fs a ha⟩

theorem withContext {f : Context → CompileM α} (h : ∀ ctx : Context, Redirects old A (f ctx)) :
    Redirects old A (get >>= f) := by
  intro ctx s a ctx' s' hs hm
  obtain ⟨_, _, _, hget, hf⟩ := bind_eq_ok.1 hm
  obtain ⟨rfl, rfl, rfl⟩ := get_eq_ok.1 hget
  exact h _ _ _ _ _ _ hs hf

theorem build {b : Build α} {P : α → Prop} (h : b.Avoids old P) :
    Redirects old (fun fs a => fs = [] ∧ P a) (build b) :=
  silent fun ctx s a ctx' s' hs hm => by
    obtain ⟨rfl, rfl, rfl⟩ := build_eq_ok.1 hm
    exact ⟨(h _ hs).1, .unread (Nat.le_refl _) fun _ _ => rfl, (h _ hs).2⟩

theorem report (event : Event) : Redirects old (fun fs _ => fs = [] ∧ True) (report event) :=
  silent fun ctx s a ctx' s' hs hm => by
    obtain ⟨rfl, rfl⟩ := report_eq_ok.1 hm
    exact ⟨hs, .unread (Nat.le_refl _) fun _ _ => rfl, trivial⟩

theorem referenceOf (id : NodeId) :
    Redirects old (fun fs _ => fs = [] ∧ True) (referenceOf id) :=
  silent fun ctx s r ctx' s' hs hm => by
    obtain ⟨-, rfl, rfl⟩ := referenceOf_eq_ok.1 hm
    exact ⟨hs, .unread (Nat.le_refl _) fun _ _ => rfl, trivial⟩

theorem takeAlias : Redirects old (fun fs _ => fs = [] ∧ True) takeAlias :=
  silent fun ctx s label ctx' s' hs hm => by
    obtain ⟨-, rfl, rfl⟩ := takeAlias_eq_ok.1 hm
    exact ⟨hs, .unread (Nat.le_succ _) fun _ _ => rfl, trivial⟩

theorem bindValue (value : Value) : Redirects old (fun fs _ => fs = [] ∧ True) (bindValue value) :=
  silent fun ctx s index ctx' s' hs hm => by
    obtain ⟨-, rfl, rfl⟩ := bindValue_eq_ok.1 hm
    exact ⟨hs, .unread (Nat.le_refl _) fun _ _ => rfl, trivial⟩

/-- New nodes can be registered anywhere. -/
theorem registerAll (qualifier : String) {fields : List (NodeId × String)}
    (h : ∀ f ∈ fields, ¬ old f.1) :
    Redirects old (fun fs _ => fs = [] ∧ True) (registerAll qualifier fields) :=
  silent fun ctx s u ctx' s' hs hm => by
    obtain ⟨rfl, rfl⟩ := registerAll_eq_ok.1 hm
    refine ⟨hs, .unread (Nat.le_of_eq (Context.nextAlias_registerAll ..).symm) fun id hid => ?_,
      trivial⟩
    rcases Context.referenceOf_registerAll qualifier id fields ctx with ⟨f, hf, rfl, -⟩ | ⟨-, hr⟩
    · exact absurd hid (h f hf)
    · exact hr

theorem indented {m : CompileM α} (levels : Nat) (hm : Redirects old A m) :
    Redirects old A (indented levels m) := by
  intro ctx s a ctx' s' hs h
  obtain ⟨ctx₁, hok, rfl⟩ := indented_eq_ok.1 h
  obtain ⟨hs', fs, hfs, ha⟩ := hm _ s a ctx₁ s' hs hok
  exact ⟨hs', fs, ⟨hfs.nextAlias_le, hfs.labels, hfs.read⟩, ha⟩

theorem normalize (q : Query) : Redirects old (fun fs _ => fs = [] ∧ True) (normalize q) :=
  silent fun ctx s a ctx' s' hs hm => by
    obtain ⟨trace, hn⟩ := outcome_normalize q ctx s
    rw [hn] at hm
    cases hm
    exact ⟨hs, .unread (Nat.le_refl _) fun _ _ => rfl, trivial⟩

end CompileM.Redirects

open CompileM (Redirects)

/-! ## Expressions -/

/-- Subqueries redirect to the derived tables in them. -/
def SubqueryCompiler.Redirects (old : NodeId → Prop) (sub : SubqueryCompiler) : Prop :=
  ∀ (query : Query) (scope : Scope),
    CompileM.Redirects old (fun fs select => fs = select.derivedFields) (sub query scope)

theorem registeredOr_redirects (id : NodeId) {own : CompileM Sql.Scalar}
    (h : Redirects old (fun fs sql => fs = sql.derivedFields) own) :
    Redirects old (fun fs sql => fs = sql.derivedFields) (registeredOr id own) := by
  refine (Redirects.referenceOf id).bind ?_
  rintro _ (_ | ref) ⟨rfl, -⟩
  · exact h
  · exact .pure rfl

theorem compileLiteral_redirects (value : Value) :
    Redirects old (fun fs sql => fs = sql.derivedFields) (compileLiteral value) := by
  unfold compileLiteral
  split
  · exact .pure rfl
  · refine Redirects.withContext fun ctx => (Redirects.bindValue _).bind ?_
    rintro _ index ⟨rfl, -⟩
    exact .pure rfl

theorem requireOneColumn_redirects (select : Sql.Select) :
    Redirects old (fun fs _ => fs = [] ∧ True) (requireOneColumn select) := by
  unfold requireOneColumn
  dsimp only
  split
  · exact .pure ⟨rfl, trivial⟩
  · exact .throw _

theorem Expr.Assembles.derivedFields_eq {e : Expr} {es : List Expr} {ts : List Sql.Scalar}
    {t : Sql.Scalar} (h : e.Assembles es ts t) :
    t.derivedFields = Sql.Scalar.derivedFieldsAll ts := by
  cases h <;> simp [Sql.Scalar.derivedFields, Sql.Scalar.derivedFieldsAll]

section

variable {sub : SubqueryCompiler}

theorem CompileM.Redirects.compileAll : ∀ {es : List Expr},
    (∀ e ∈ es, Redirects old (fun fs sql => fs = sql.derivedFields) (e.compile sub)) →
      Redirects old (fun fs sqls => fs = Sql.Scalar.derivedFieldsAll sqls ∧
        sqls.length = es.length) (Expr.compileAll sub es)
  | [], _ => .pure ⟨rfl, rfl⟩
  | _ :: _, h => by
      rw [List.forall_mem_cons] at h
      refine h.1.bind ?_
      rintro _ sql rfl
      refine (CompileM.Redirects.compileAll h.2).bind ?_
      rintro _ sqls ⟨rfl, hlength⟩
      exact .pure ⟨by rw [List.append_nil]; rfl, congrArg (· + 1) hlength⟩

/-- Compiling an expression redirects old nodes to derived tables inside it, if at all. -/
theorem Expr.compile_redirects (hsub : SubqueryCompiler.Redirects old sub) (e : Expr) :
    Redirects old (fun fs sql => fs = sql.derivedFields) (e.compile sub) := by
  induction e using Expr.form_induction with
  | refused _ hown =>
      rw [hown]
      exact registeredOr_redirects _ (.throw _)
  | bound _ => exact registeredOr_redirects _ (compileLiteral_redirects _)
  | assembled hmake hown ih =>
      rw [hown]
      refine registeredOr_redirects _ ((Redirects.compileAll ih).bind ?_)
      rintro _ ts ⟨rfl, hlength⟩
      exact .pure (by rw [List.append_nil, (hmake ts hlength).derivedFields_eq])
  | @membership id needle query scope ih =>
      refine registeredOr_redirects id (ih.bind ?_)
      rintro _ n rfl
      refine (Redirects.normalize query).bind ?_
      rintro _ normal ⟨rfl, -⟩
      refine ((hsub normal scope).indented 2).bind ?_
      rintro _ select rfl
      refine (requireOneColumn_redirects select).bind ?_
      rintro _ _ ⟨rfl, -⟩
      exact .pure (by simp [Sql.Scalar.derivedFields])

theorem Expr.compileAll_redirects (hsub : SubqueryCompiler.Redirects old sub) (es : List Expr) :
    Redirects old (fun fs sqls => fs = Sql.Scalar.derivedFieldsAll sqls ∧ sqls.length = es.length)
      (Expr.compileAll sub es) :=
  .compileAll fun e _ => e.compile_redirects hsub

end

/-! ## Sources and clauses -/

theorem Table.zip_ids_avoids {columns : List Expr} (h : ∀ c ∈ columns, ¬ old c.id)
    (names : List String) : ∀ f ∈ (columns.map Expr.id).zip names, ¬ old f.1 := by
  intro f hf
  obtain ⟨c, hc, hid⟩ := List.mem_map.1 (List.of_mem_zip hf).1
  exact hid ▸ h c hc

theorem compileTable_redirects (t : Table) :
    Redirects old (fun fs r => fs = r.1.derivedFields) (compileTable t) := by
  refine (Redirects.build (Table.columnNodes_avoids t.name t.columns)).bind ?_
  rintro _ columns ⟨rfl, hcolumns⟩
  refine Redirects.takeAlias.bind ?_
  rintro _ label ⟨rfl, -⟩
  refine (Redirects.registerAll label (Table.zip_ids_avoids hcolumns t.columns)).bind ?_
  rintro _ _ ⟨rfl, -⟩
  exact .pure rfl

/-- A derived table takes over the nodes of its output columns. -/
theorem compileDerived_redirects {inner : Compiled}
    (h : inner.fields.map Field.name = inner.select.outputs.map Sql.Output.name) :
    Redirects old (fun fs r => inner.select.derivedFields ++ fs = r.1.derivedFields)
      (compileDerived inner) := by
  intro ctx s r ctx' s' hs hok
  simp only [compileDerived, CompileM.bind_eq_ok, CompileM.takeAlias_eq_ok,
    CompileM.registerAll_eq_ok, CompileM.pure_eq_ok] at hok
  obtain ⟨label, _, _, ⟨rfl, rfl, rfl⟩, _, _, _, ⟨rfl, rfl⟩, rfl, rfl, rfl⟩ := hok
  refine ⟨hs, inner.select.outputs.map (⟨Context.aliasName ctx.nextAlias, ·.name⟩), ⟨?_, ?_, ?_⟩,
    rfl⟩
  · rw [Context.nextAlias_registerAll]
    exact Nat.le_succ _
  · intro r hr
    obtain ⟨output, -, rfl⟩ := List.mem_map.1 hr
    refine ⟨ctx.nextAlias, Nat.le_refl _, ?_, rfl⟩
    rw [Context.nextAlias_registerAll]
    exact Nat.lt_succ_self _
  · intro id _
    rcases Context.referenceOf_registerAll (Context.aliasName ctx.nextAlias) id
      ((Field.firstUses [] inner.fields).map fun f => (f.expr.id, f.name)) ctx.takeAlias with
      ⟨f, hf, -, hread⟩ | ⟨-, hread⟩
    · obtain ⟨field, hfield, rfl⟩ := List.mem_map.1 hf
      have hname : field.name ∈ inner.select.outputs.map Sql.Output.name :=
        h ▸ List.mem_map_of_mem (Field.firstUses_subset [] _ hfield)
      obtain ⟨output, houtput, hname⟩ := List.mem_map.1 hname
      refine .inr ⟨_, List.mem_map_of_mem houtput, ?_⟩
      rw [hread, hname]
    · exact .inl hread

section

variable {sub : SubqueryCompiler} (hsub : SubqueryCompiler.Redirects old sub) (scope : Scope)

include hsub

theorem compileJoin_redirects (join : JoinTerm) (row : Row) :
    Redirects old (fun fs r => fs = Sql.Join.derivedFieldsAll [r.1])
      (compileJoin sub scope join row) := by
  obtain ⟨kind, table, outerKey, innerKey, result, aliases⟩ := join
  refine (Redirects.build (Table.columnNodes_avoids table.name table.columns)).bind ?_
  rintro _ columns ⟨rfl, hcolumns⟩
  refine Redirects.takeAlias.bind ?_
  rintro _ label ⟨rfl, -⟩
  refine (Redirects.registerAll label (Table.zip_ids_avoids hcolumns table.columns)).bind ?_
  rintro _ _ ⟨rfl, -⟩
  refine (Redirects.build (ExprTerm.eval_avoids outerKey _)).bind ?_
  rintro _ outer ⟨rfl, -⟩
  refine (Expr.compile_redirects hsub outer).bind ?_
  rintro _ outerSql rfl
  refine (Redirects.build (ExprTerm.eval_avoids innerKey _)).bind ?_
  rintro _ inner ⟨rfl, -⟩
  refine (Expr.compile_redirects hsub inner).bind ?_
  rintro _ innerSql rfl
  refine (Redirects.build (RowTerm.eval_avoids result _)).bind ?_
  rintro _ row ⟨rfl, -⟩
  exact .pure (by simp [Sql.Join.derivedFieldsAll])

theorem compileJoins_redirects : ∀ (joins : List JoinTerm) (row : Row),
    Redirects old (fun fs r => fs = Sql.Join.derivedFieldsAll r.1)
      (compileJoins sub scope joins row)
  | [], _ => .pure rfl
  | join :: joins, row => by
      refine (compileJoin_redirects hsub scope join row).bind ?_
      rintro _ ⟨⟨kind, table, label, outer, inner⟩, row⟩ rfl
      refine (compileJoins_redirects joins row).bind ?_
      rintro _ ⟨sqls, row⟩ rfl
      exact .pure (by simp [Sql.Join.derivedFieldsAll])

theorem compileJoinClause_redirects (joins : Option (List JoinTerm)) (row : Row) :
    Redirects old (fun fs r => fs = Sql.Join.derivedFieldsAll r.1)
      (compileJoinClause sub scope joins row) := by
  match joins with
  | none => exact .pure rfl
  | some [] => exact .throw _
  | some (join :: joins) => exact compileJoins_redirects hsub scope _ row

theorem compileCondition_redirects (predicate : Option ExprTerm) (row : Row) :
    Redirects old (fun fs r => fs = Sql.Scalar.derivedFieldsOption r)
      (compileCondition sub scope predicate row) := by
  cases predicate with
  | none => exact .pure rfl
  | some t =>
      refine (Redirects.build (ExprTerm.eval_avoids t _)).bind ?_
      rintro _ e ⟨rfl, -⟩
      refine (Expr.compile_redirects hsub e).bind ?_
      rintro _ sql rfl
      exact .pure (by simp [Sql.Scalar.derivedFieldsOption])

theorem compileGrouping_redirects (grouping : Option Grouping) (row : Row) :
    Redirects old
      (fun fs r => fs = Sql.Scalar.derivedFieldsAll r.1 ++ Sql.Scalar.derivedFieldsOption r.2.1)
      (compileGrouping sub scope grouping row) := by
  cases grouping with
  | none => exact .pure rfl
  | some g =>
      refine (Redirects.build (ExprTerm.evalAll_avoids g.keys _)).bind ?_
      rintro _ keys ⟨rfl, -⟩
      show Redirects old _ (if keys.isEmpty then _ else _)
      split
      · exact .throw _
      · refine (Expr.compileAll_redirects hsub keys).bind ?_
        rintro _ keySql ⟨rfl, -⟩
        refine (compileCondition_redirects hsub scope g.having row).bind ?_
        rintro _ havingSql rfl
        exact .pure (by simp)

theorem compileOrder_redirects (keys : List SortTerm) (row : Row) :
    Redirects old (fun fs items => fs = Sql.OrderItem.derivedFieldsAll items)
      (compileOrder sub scope keys row) := by
  have hbuild : Build.Avoids old (fun es => es.length = (keys.map (·.key)).length)
      (ExprTerm.evalAllOn (keys.map (·.key)) scope row) := fun s hs =>
    ⟨(ExprTerm.evalAll_avoids _ _ s hs).1, ExprTerm.evalAll_length _ _ s⟩
  refine (Redirects.build hbuild).bind ?_
  rintro _ es ⟨rfl, hes⟩
  refine (Expr.compileAll_redirects hsub es).bind ?_
  rintro _ sqls ⟨rfl, hsqls⟩
  have hlength : sqls.length = keys.length := hsqls.trans (hes.trans (List.length_map _))
  exact .pure (by simp [Sql.OrderItem.derivedFieldsAll_zipWith hlength])

omit hsub in
theorem givenNames_redirects (given : Option (List String)) (width : Nat) :
    Redirects old (fun fs _ => fs = [] ∧ True) (givenNames given width) := by
  cases given with
  | none => exact .pure ⟨rfl, trivial⟩
  | some names =>
      show Redirects old _ (if names.length = width then _ else _)
      split
      · exact .pure ⟨rfl, trivial⟩
      · refine (Redirects.report _).bind ?_
        rintro _ _ ⟨rfl, -⟩
        exact .pure ⟨rfl, trivial⟩

theorem compileProjection_redirects (given : Option (List String)) (row : Row) :
    Redirects old (fun fs r => fs = Sql.Output.derivedFieldsAll r.1 ∧
        r.2.map Field.name = r.1.map Sql.Output.name)
      (compileProjection sub given row) := by
  unfold compileProjection
  dsimp only
  split
  · exact .throw _
  · refine (Expr.compileAll_redirects hsub row.flatten).bind ?_
    rintro _ sqls ⟨rfl, hsqls⟩
    refine (givenNames_redirects given _).bind ?_
    rintro _ names ⟨rfl, -⟩
    refine Redirects.withContext fun ctx => .pure ?_
    have hnames := length_outputNames ctx.referenceOf names row.flatten
    have hlength := hnames.trans hsqls.symm
    refine ⟨?_, ?_⟩
    · simp [Sql.Output.derivedFieldsAll_zipWith hlength.symm]
    · rw [Field.map_name_zipWith hnames, Sql.Output.map_name_zipWith hlength]

/-- A statement redirects to the derived tables in it, and names its fields as its outputs. -/
theorem compileClauses_redirects (clauses : Clauses) (stages : List RowTerm)
    (aliases : Option (List String)) (source : Sql.Source) (row : Row) :
    Redirects old (fun fs c => source.derivedFields ++ fs = c.select.derivedFields ∧
        c.fields.map Field.name = c.select.outputs.map Sql.Output.name)
      (compileClauses sub scope clauses stages aliases source row) := by
  refine (compileJoinClause_redirects hsub scope clauses.joins row).bind ?_
  rintro _ ⟨joins, row⟩ rfl
  refine (compileCondition_redirects hsub scope clauses.filter row).bind ?_
  rintro _ filter rfl
  refine (compileGrouping_redirects hsub scope clauses.grouping row).bind ?_
  rintro _ ⟨keys, having, row⟩ rfl
  refine (compileOrder_redirects hsub scope (clauses.order.getD []) row).bind ?_
  rintro _ order rfl
  refine (Redirects.build (RowTerm.runStages_avoids scope stages row)).bind ?_
  rintro _ row ⟨rfl, -⟩
  refine (compileProjection_redirects hsub _ row).bind ?_
  rintro _ ⟨outputs, fields⟩ ⟨rfl, hnames⟩
  exact .pure ⟨by simp [Sql.Select.derivedFields], hnames⟩

end

/-! ## Statements -/

section

variable {sub : SubqueryCompiler}

mutual

theorem Block.compile_redirects (hsub : SubqueryCompiler.Redirects old sub) (scope : Scope) :
    ∀ block : Block,
      Redirects old (fun fs c => fs = c.select.derivedFields ∧
          c.fields.map Field.name = c.select.outputs.map Sql.Output.name)
        (block.compile sub scope)
  | .mk body clauses base stages aliases => by
      refine Redirects.withContext fun _ => (Redirects.report _).bind ?_
      rintro _ _ ⟨rfl, -⟩
      refine (Base.compile_redirects hsub scope base).bind ?_
      rintro _ ⟨source, row⟩ rfl
      exact compileClauses_redirects hsub scope clauses stages aliases source row

theorem Base.compile_redirects (hsub : SubqueryCompiler.Redirects old sub) (scope : Scope) :
    ∀ base : Base, Redirects old (fun fs r => fs = r.1.derivedFields) (base.compile sub scope)
  | .table t => compileTable_redirects t
  | .derived block => by
      refine ((Block.compile_redirects hsub scope block).indented 1).bind ?_
      rintro _ inner ⟨rfl, hnames⟩
      exact compileDerived_redirects hnames
  | .strayHaving _ => .throw _

end

end

theorem compileWithin_redirects : ∀ depth : Nat,
    SubqueryCompiler.Redirects old (compileWithin depth)
  | 0, _, _ => .throw _
  | depth + 1, query, scope => by
      have hquery : Redirects old (fun fs c => fs = c.select.derivedFields)
          (query.compile (compileWithin depth) scope) := by
        unfold Query.compile
        split
        · next block _ =>
            exact (Block.compile_redirects (compileWithin_redirects depth) scope block).mono
              fun _ _ h => h.1
        · exact .throw _
      refine hquery.bind ?_
      rintro _ c rfl
      exact .pure (List.append_nil _)

/-- After an expression has been compiled, every node that was registered before is read from where it
was, or from an output column of a derived table inside a subquery of the expression, under an alias
that was given out since. -/
theorem referenceOf_compile (depth : Nat) (e : Expr) {ctx ctx' : Context} {s s' : Session}
    {sql : Sql.Scalar} (hs : s.supply.Avoids fun id => ctx.referenceOf id ≠ none)
    (hok : CompileM.outcome (e.compile (compileWithin depth)) ctx s = (.ok (sql, ctx'), s')) :
    ∀ id r, ctx.referenceOf id = some r →
      ctx'.referenceOf id = some r ∨
        ∃ r' ∈ sql.derivedFields, ctx'.referenceOf id = some r' ∧
          ∃ k, ctx.nextAlias ≤ k ∧ k < ctx'.nextAlias ∧ r'.qualifier = Context.aliasName k := by
  intro id r hr
  obtain ⟨-, _, hredirects, rfl⟩ :=
    Expr.compile_redirects (compileWithin_redirects depth) e ctx s sql ctx' s' hs hok
  have hold : ctx.referenceOf id ≠ none := by
    rw [hr]
    exact Option.some_ne_none r
  rcases hredirects.read id hold with hsame | ⟨r', hr', hread⟩
  · exact .inl (hsame.trans hr)
  · exact .inr ⟨r', hr', hread, hredirects.labels r' hr'⟩

/-- The key of a customer, read from the statement at hand. -/
private def customerKey : Expr := .column 0 "customers" "Id"

/-- The customer is among the rows of a derived table that projects the customer's own key. -/
private def amongOwn : Expr :=
  .inQuery 1 customerKey
    (.derived (.select (.table ⟨"orders", ["CustomerId"]⟩) [.exprs [.named (.get "c") "Id"]] none))
    [.named "c" (.table ⟨"customers", ["Id"]⟩ [customerKey])]

private def overCustomers : Context :=
  ((Context.empty .generic).registerAll "a0" [(0, "Id")]).takeAlias

private def fromTwo : Session := { supply := .counting 2 }

/-- The key of the customer is redirected: from then on the enclosing statement reads it from a table
that stands inside the subquery only. -/
theorem referenceOf_compile_amongOwn_ne :
    ((CompileM.outcome (amongOwn.compile (compileWithin 1)) overCustomers fromTwo).1.toOption.map
      fun r => r.2.referenceOf 0) = some (some ⟨"a2", "Id"⟩) ∧
    overCustomers.referenceOf 0 = some ⟨"a0", "Id"⟩ := by
  constructor <;> decide +kernel

/-- The redirected key is read from the output column of the derived table. -/
theorem referenceOf_compile_amongOwn :
    (fromTwo.supply.Avoids fun id => overCustomers.referenceOf id ≠ none) ∧
    ∃ sql ctx' s', CompileM.outcome (amongOwn.compile (compileWithin 1)) overCustomers fromTwo =
        (.ok (sql, ctx'), s') ∧
      (ctx'.referenceOf 0 = some ⟨"a0", "Id"⟩ ∨
        ∃ r' ∈ sql.derivedFields, ctx'.referenceOf 0 = some r' ∧
          ∃ k, 1 ≤ k ∧ k < ctx'.nextAlias ∧ r'.qualifier = Context.aliasName k) := by
  have hs : fromTwo.supply.Avoids fun id => overCustomers.referenceOf id ≠ none := by
    intro n _ hn
    have hread : overCustomers.referenceOf (2 + n) =
        if 2 + n = 0 then some ⟨"a0", "Id"⟩ else none := Context.referenceOf_register _ 0 (2 + n) _
    rw [if_neg (by omega)] at hread
    exact hn hread
  refine ⟨hs, ?_⟩
  have hsome : (CompileM.outcome (amongOwn.compile (compileWithin 1)) overCustomers
      fromTwo).1.toOption.isSome = true := by decide +kernel
  rcases hok : CompileM.outcome (amongOwn.compile (compileWithin 1)) overCustomers fromTwo with
    ⟨_ | ⟨sql, ctx'⟩, s'⟩
  · rw [hok] at hsome
    cases hsome
  · exact ⟨sql, ctx', s', rfl, referenceOf_compile 1 amongOwn hs hok 0 _ rfl⟩

end QueryCompiler
