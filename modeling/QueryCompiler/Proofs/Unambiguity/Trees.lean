import QueryCompiler.Proofs.Scoping.Reads
import QueryCompiler.Proofs.Steps
import QueryCompiler.Proofs.Unambiguity.Reader

/-! # `QueryCompiler.Proofs.Unambiguity.Trees` — the text of an expression tells its operators

Where only columns are registered, two expressions with the same text are the same tree of
operators.  Compiling forgets little: which node a field is read from, the values of literals, which
of the two forms of null is meant, and on which side of `=` or `!=` null stands.

What compiling makes of an expression is first described as a relation, `WrittenAs`, that knows
nothing of contexts and placeholders.  Two expressions written as one tree are the same but for
that, and the tree can be read back from its text.
-/

namespace QueryCompiler

open CompileM (outcome)

variable {read : NodeId → Option Reference}

/-! ## Trees of operators -/

mutual

/-- The expressions agree node by node: in operators, functions, parameters and the order of
operands.  Columns agree if they are read from the same field, and literals if both have a value. -/
inductive Expr.SameTree (read : NodeId → Option Reference) : Expr → Expr → Prop
  | literal {id id' value value'} : value.isNull = false → value'.isNull = false →
      Expr.SameTree read (.literal id value) (.literal id' value')
  /-- Null is one thing, however it is spelled. -/
  | null {e e'} : e.isNullLiteral → e'.isNullLiteral → Expr.SameTree read e e'
  | column {id id' table table' name name' r} : read id = some r → read id' = some r →
      Expr.SameTree read (.column id table name) (.column id' table' name')
  | parameter {id id' name} : Expr.SameTree read (.parameter id name) (.parameter id' name)
  | binary {id id' op left left' right right'} : Expr.SameTree read left left' →
      Expr.SameTree read right right' →
      Expr.SameTree read (.binary id op left right) (.binary id' op left' right')
  | unary {id id' op operand operand'} : Expr.SameTree read operand operand' →
      Expr.SameTree read (.unary id op operand) (.unary id' op operand')
  | compare {id id' op left left' right right'} : Expr.SameTree read left left' →
      Expr.SameTree read right right' →
      Expr.SameTree read (.compare id op left right) (.compare id' op left' right')
  /-- Null on the right of `=` or `!=` here, and on the left there. -/
  | compareRight {id id' op subject subject' null null'} : op.nullTest? ≠ none →
      null.isNullLiteral → null'.isNullLiteral → Expr.SameTree read subject subject' →
      Expr.SameTree read (.compare id op subject null) (.compare id' op null' subject')
  /-- Null on the left of `=` or `!=` here, and on the right there. -/
  | compareLeft {id id' op subject subject' null null'} : op.nullTest? ≠ none →
      null.isNullLiteral → null'.isNullLiteral → Expr.SameTree read subject subject' →
      Expr.SameTree read (.compare id op null subject) (.compare id' op subject' null')
  | aggregate {id id' func distinct operand operand'} : Expr.SameTree read operand operand' →
      Expr.SameTree read (.aggregate id func distinct operand)
        (.aggregate id' func distinct operand')
  | countStar {id id'} : Expr.SameTree read (.countStar id) (.countStar id')
  | case {id id' condition condition' positive positive' negative negative'} :
      Expr.SameTree read condition condition' → Expr.SameTree read positive positive' →
      Expr.SameTree read negative negative' →
      Expr.SameTree read (.case id condition positive negative)
        (.case id' condition' positive' negative')
  | like {id id' value value' pattern pattern'} : Expr.SameTree read value value' →
      Expr.SameTree read pattern pattern' →
      Expr.SameTree read (.like id value pattern) (.like id' value' pattern')
  | inList {id id' needle needle' values values'} : Expr.SameTree read needle needle' →
      Expr.SameTreeAll read values values' →
      Expr.SameTree read (.inList id needle values) (.inList id' needle' values')

/-- As many expressions on both sides, and each agrees with its counterpart. -/
inductive Expr.SameTreeAll (read : NodeId → Option Reference) : List Expr → List Expr → Prop
  | nil : Expr.SameTreeAll read [] []
  | cons {e e' es es'} : Expr.SameTree read e e' → Expr.SameTreeAll read es es' →
      Expr.SameTreeAll read (e :: es) (e' :: es')

end

/-! ## What an expression is written as -/

mutual

/-- The expression is written as the given tree, by whatever placeholders. -/
inductive Expr.WrittenAs (read : NodeId → Option Reference) : Expr → Sql.Scalar → Prop
  | literal {id value index} : value.isNull = false →
      Expr.WrittenAs read (.literal id value) (.bound index)
  | null {e} : e.isNullLiteral → Expr.WrittenAs read e .null
  | column {id table name qualifier field} : read id = some ⟨qualifier, field⟩ →
      Expr.WrittenAs read (.column id table name) (.reference qualifier field)
  | parameter {id name} : Sql.IsName name → Sql.isNumbered name.toList = false →
      Expr.WrittenAs read (.parameter id name) (.named name)
  | binary {id op left right l r} : Expr.WrittenAs read left l → Expr.WrittenAs read right r →
      Expr.WrittenAs read (.binary id op left right) (.binary op l r)
  | unary {id op operand sql} : Expr.WrittenAs read operand sql →
      Expr.WrittenAs read (.unary id op operand) (.unary op sql)
  | compare {id op left right l r} : Expr.WrittenAs read left l → Expr.WrittenAs read right r →
      Expr.WrittenAs read (.compare id op left right) (.compare op l r)
  | nullRight {id op subject null negated sql} : op.nullTest? = some negated →
      null.isNullLiteral → Expr.WrittenAs read subject sql →
      Expr.WrittenAs read (.compare id op subject null) (.nullTest negated sql)
  | nullLeft {id op null subject negated sql} : op.nullTest? = some negated →
      null.isNullLiteral → Expr.WrittenAs read subject sql →
      Expr.WrittenAs read (.compare id op null subject) (.nullTest negated sql)
  | aggregate {id func distinct operand sql} : Expr.WrittenAs read operand sql →
      Expr.WrittenAs read (.aggregate id func distinct operand) (.aggregate func distinct sql)
  | countStar {id} : Expr.WrittenAs read (.countStar id) .countStar
  | case {id condition positive negative c p n} : Expr.WrittenAs read condition c →
      Expr.WrittenAs read positive p → Expr.WrittenAs read negative n →
      Expr.WrittenAs read (.case id condition positive negative) (.case c p n)
  | like {id value pattern v p} : Expr.WrittenAs read value v → Expr.WrittenAs read pattern p →
      Expr.WrittenAs read (.like id value pattern) (.like v p)
  | inList {id needle values n vs} : Expr.WrittenAs read needle n →
      Expr.WrittenAsAll read values vs → vs ≠ [] →
      Expr.WrittenAs read (.inList id needle values) (.inList n vs)

inductive Expr.WrittenAsAll (read : NodeId → Option Reference) :
    List Expr → List Sql.Scalar → Prop
  | nil : Expr.WrittenAsAll read [] []
  | cons {e es sql sqls} : Expr.WrittenAs read e sql → Expr.WrittenAsAll read es sqls →
      Expr.WrittenAsAll read (e :: es) (sql :: sqls)

end

theorem CompareOp.eq_of_nullTest? {op op' : CompareOp} {negated : Bool}
    (h : op.nullTest? = some negated) (h' : op'.nullTest? = some negated) : op = op' := by
  cases op <;> cases op' <;> simp_all [CompareOp.nullTest?]

mutual

/-- Expressions written as one tree are the same tree. -/
theorem Expr.WrittenAs.sameTree : ∀ {e e' : Expr} {sql : Sql.Scalar},
    e.WrittenAs read sql → e'.WrittenAs read sql → e.SameTree read e'
  | _, _, _, .literal h, .literal h' => .literal h h'
  | _, _, _, .null h, .null h' => .null h h'
  | _, _, _, .column h, .column h' => .column h h'
  | _, _, _, .parameter _ _, .parameter _ _ => .parameter
  | _, _, _, .binary hl hr, .binary hl' hr' => .binary (hl.sameTree hl') (hr.sameTree hr')
  | _, _, _, .unary h, .unary h' => .unary (h.sameTree h')
  | _, _, _, .compare hl hr, .compare hl' hr' => .compare (hl.sameTree hl') (hr.sameTree hr')
  | _, _, _, .nullRight hop hn h, .nullRight hop' hn' h' =>
      CompareOp.eq_of_nullTest? hop hop' ▸ .compare (h.sameTree h') (.null hn hn')
  | _, _, _, .nullRight hop hn h, .nullLeft hop' hn' h' =>
      CompareOp.eq_of_nullTest? hop hop' ▸ .compareRight (by simp [hop]) hn hn' (h.sameTree h')
  | _, _, _, .nullLeft hop hn h, .nullRight hop' hn' h' =>
      CompareOp.eq_of_nullTest? hop hop' ▸ .compareLeft (by simp [hop]) hn hn' (h.sameTree h')
  | _, _, _, .nullLeft hop hn h, .nullLeft hop' hn' h' =>
      CompareOp.eq_of_nullTest? hop hop' ▸ .compare (.null hn hn') (h.sameTree h')
  | _, _, _, .aggregate h, .aggregate h' => .aggregate (h.sameTree h')
  | _, _, _, .countStar, .countStar => .countStar
  | _, _, _, .case hc hp hn, .case hc' hp' hn' =>
      .case (hc.sameTree hc') (hp.sameTree hp') (hn.sameTree hn')
  | _, _, _, .like hv hp, .like hv' hp' => .like (hv.sameTree hv') (hp.sameTree hp')
  | _, _, _, .inList hn hvs _, .inList hn' hvs' _ =>
      .inList (hn.sameTree hn') (hvs.sameTreeAll hvs')

theorem Expr.WrittenAsAll.sameTreeAll : ∀ {es es' : List Expr} {sqls : List Sql.Scalar},
    Expr.WrittenAsAll read es sqls → Expr.WrittenAsAll read es' sqls →
      Expr.SameTreeAll read es es'
  | _, _, _, .nil, .nil => .nil
  | _, _, _, .cons h hs, .cons h' hs' => .cons (h.sameTree h') (hs.sameTreeAll hs')

end

/-- Nodes are read from sources and fields whose names can be read back. -/
def FieldsNamed (read : NodeId → Option Reference) : Prop :=
  ∀ id r, read id = some r → Sql.IsName r.qualifier ∧ Sql.IsName r.field

mutual

/-- What an expression is written as can be read back. -/
theorem Expr.WrittenAs.readable (hn : FieldsNamed read) :
    ∀ {e : Expr} {sql : Sql.Scalar}, e.WrittenAs read sql → sql.Readable
  | _, _, .literal _ => .bound
  | _, _, .null _ => .null
  | _, _, .column h => .reference (hn _ _ h).1 (hn _ _ h).2
  | _, _, .parameter h hword => .named h hword
  | _, _, .binary hl hr => .binary (hl.readable hn) (hr.readable hn)
  | _, _, .unary h => .unary (h.readable hn)
  | _, _, .compare hl hr => .compare (hl.readable hn) (hr.readable hn)
  | _, _, .nullRight _ _ h | _, _, .nullLeft _ _ h => .nullTest (h.readable hn)
  | _, _, .aggregate h => .aggregate (h.readable hn)
  | _, _, .countStar => .countStar
  | _, _, .case hc hp he => .case (hc.readable hn) (hp.readable hn) (he.readable hn)
  | _, _, .like hv hp => .like (hv.readable hn) (hp.readable hn)
  | _, _, .inList he hvs hne => .inList (he.readable hn) hne (hvs.readable hn)

theorem Expr.WrittenAsAll.readable (hn : FieldsNamed read) :
    ∀ {es : List Expr} {sqls : List Sql.Scalar}, Expr.WrittenAsAll read es sqls →
      ∀ sql ∈ sqls, sql.Readable
  | _, _, .nil => by simp
  | _, _, .cons h hs => List.forall_mem_cons.2 ⟨h.readable hn, hs.readable hn⟩

end

/-! ## Compiling -/

/-- Every node of the expression has the property, and none is a subquery. -/
inductive Expr.Throughout (P : Expr → Prop) : Expr → Prop
  | node {e operands} : P e → e.operands? = some operands →
      (∀ o ∈ operands, Expr.Throughout P o) → Expr.Throughout P e

/-- A node that is registered only if it is a column, and that has the name of no bound value if it
is a parameter. -/
structure Expr.Plain (read : NodeId → Option Reference) (e : Expr) : Prop where
  isColumn : read e.id ≠ none → e.isColumn
  name : ∀ id name, e = .parameter id name → Sql.IsName name ∧ Sql.isNumbered name.toList = false

theorem Expr.Throughout.here {P : Expr → Prop} {e : Expr} (h : e.Throughout P) : P e := by
  cases h with
  | node hp _ _ => exact hp

/-- Nothing but columns is registered. -/
theorem Expr.Throughout.unregistered {e : Expr} (h : e.Throughout (Expr.Plain read))
    (he : e.isColumn = false) : read e.id = none := by
  by_contra hread
  have hcolumn := h.here.isColumn hread
  simp [he] at hcolumn

theorem Expr.Throughout.child {P : Expr → Prop} {e child : Expr} (h : e.Throughout P)
    (hchild : child ∈ e.children) : child.Throughout P := by
  cases h with
  | node _ ho hall => exact hall child (Expr.children_eq ho ▸ hchild)

/-- Where nodes are read as given, the step comes to something with the property, and they are read
so behind it as well. -/
def CompileM.Yields {α : Type} (read : NodeId → Option Reference) (P : α → Prop)
    (m : CompileM α) : Prop :=
  ∀ ⦃ctx ctx₁ : Context⦄ ⦃s s₁ : Session⦄ ⦃a : α⦄, ctx.referenceOf = read →
    outcome m ctx s = (.ok (a, ctx₁), s₁) → P a ∧ ctx₁.referenceOf = read

namespace CompileM.Yields

variable {α β : Type} {P : α → Prop} {Q : β → Prop}

theorem pure {a : α} (h : P a) : Yields read P (pure a) := by
  intro ctx ctx₁ s s₁ b hread hok
  obtain ⟨rfl, rfl, rfl⟩ := pure_eq_ok.1 hok
  exact ⟨h, hread⟩

theorem throw (e : CompileError) : Yields read P (throw e) := by
  intro ctx ctx₁ s s₁ a _ hok
  exact absurd hok throw_eq_ok.1

theorem bind {m : CompileM α} {f : α → CompileM β} (h : Yields read P m)
    (hf : ∀ a, P a → Yields read Q (f a)) : Yields read Q (m >>= f) := by
  intro ctx ctx₁ s s₁ b hread hok
  obtain ⟨a, ctx', s', hm, hrest⟩ := bind_eq_ok.1 hok
  obtain ⟨ha, hread'⟩ := h hread hm
  exact hf a ha hread' hrest

theorem registeredOr {P : Sql.Scalar → Prop} {id : NodeId} {own : CompileM Sql.Scalar}
    (href : ∀ r, read id = some r → P (.reference r.qualifier r.field))
    (hown : Yields read P own) : Yields read P (registeredOr id own) := by
  intro ctx ctx₁ s s₁ sql hread hok
  rw [outcome_registeredOr, hread] at hok
  cases hr : read id with
  | none =>
      rw [hr] at hok
      exact hown hread hok
  | some r =>
      rw [hr] at hok
      cases hok
      exact ⟨href r hr, hread⟩

/-- A node that is not registered comes to its own form. -/
theorem own {P : Sql.Scalar → Prop} {id : NodeId} {own : CompileM Sql.Scalar}
    (h : read id = none) (hown : Yields read P own) :
    Yields read P (QueryCompiler.registeredOr id own) :=
  registeredOr (fun _ hr => absurd (hr.symm.trans h) (Option.some_ne_none _)) hown

end CompileM.Yields

open CompileM (Yields)

theorem compileLiteral_yields (id : NodeId) (value : Value) :
    Yields read (Expr.WrittenAs read (.literal id value)) (compileLiteral value) := by
  unfold compileLiteral
  split
  · next hnull => exact .pure (.null hnull)
  · next hvalue =>
      intro ctx ctx₁ s s₁ sql hread hok
      cases hok
      exact ⟨.literal (Bool.eq_false_iff.2 hvalue), hread⟩

variable {sub : SubqueryCompiler}

theorem CompileM.Yields.compileAll : ∀ {es : List Expr},
    (∀ e ∈ es, Yields read (e.WrittenAs read) (e.compile sub)) →
      Yields read (Expr.WrittenAsAll read es) (Expr.compileAll sub es)
  | [], _ => .pure .nil
  | _ :: _, h => by
      rw [List.forall_mem_cons] at h
      refine h.1.bind fun sql hsql => ?_
      exact (CompileM.Yields.compileAll h.2).bind fun sqls hsqls => .pure (.cons hsql hsqls)

theorem Expr.WrittenAsAll.length_eq : ∀ {es : List Expr} {sqls : List Sql.Scalar},
    Expr.WrittenAsAll read es sqls → sqls.length = es.length
  | _, _, .nil => rfl
  | _, _, .cons _ hs => congrArg (· + 1) hs.length_eq

/-- What is made of written operands is the written form of the expression. -/
theorem Expr.Assembles.writtenAs {e : Expr} {es : List Expr} {ts : List Sql.Scalar} {t : Sql.Scalar}
    (h : e.Assembles es ts t) (he : e.Plain read) (hes : Expr.WrittenAsAll read es ts) :
    e.WrittenAs read t := by
  cases h with
  | null => exact .null rfl
  | nullLiteral hnull => exact .null hnull
  | @parameter id name => exact .parameter (he.name id name rfl).1 (he.name id name rfl).2
  | countStar => exact .countStar
  | unary =>
      obtain _ | ⟨h, _⟩ := hes
      exact .unary h
  | aggregate =>
      obtain _ | ⟨h, _⟩ := hes
      exact .aggregate h
  | binary =>
      obtain _ | ⟨hl, _ | ⟨hr, _⟩⟩ := hes
      exact .binary hl hr
  | like =>
      obtain _ | ⟨hv, _ | ⟨hp, _⟩⟩ := hes
      exact .like hv hp
  | compare _ =>
      obtain _ | ⟨hl, _ | ⟨hr, _⟩⟩ := hes
      exact .compare hl hr
  | rightNull htest hnull =>
      obtain _ | ⟨h, _⟩ := hes
      exact .nullRight htest hnull h
  | leftNull htest hnull _ =>
      obtain _ | ⟨h, _⟩ := hes
      exact .nullLeft htest hnull h
  | case =>
      obtain _ | ⟨hc, _ | ⟨hp, _ | ⟨hn, _⟩⟩⟩ := hes
      exact .case hc hp hn
  | inList =>
      obtain _ | ⟨hn, hvs⟩ := hes
      exact .inList hn hvs (List.cons_ne_nil _ _)

/-- Compiling writes an expression as the relation says. -/
theorem Expr.compile_yields {e : Expr} (h : e.Throughout (Expr.Plain read)) :
    Yields read (e.WrittenAs read) (e.compile sub) := by
  induction e using Expr.form_induction with
  | refused hrefused hown =>
      rw [hown]
      cases hrefused with
      | column => exact .registeredOr (fun _ hr => .column hr) (.throw _)
      | unknown | emptyList => exact .own (h.unregistered rfl) (.throw _)
  | bound _ => exact .own (h.unregistered rfl) (compileLiteral_yields _ _)
  | @assembled e es make hmake hown ih =>
      rw [hown]
      obtain ⟨_, _, ha⟩ := hmake.exists
      have hes := Yields.compileAll fun o ho => ih o ho (h.child (ha.subset ho))
      have hcolumn : e.isColumn = false := by cases ha <;> rfl
      refine .own (h.unregistered hcolumn) (hes.bind fun ts hts => .pure ?_)
      exact (hmake ts hts.length_eq).writtenAs h.here hts
  | membership _ =>
      cases h with
      | node _ ho _ => cases ho

/-- Two expressions without subqueries that come to the same text in one context are the same tree
of operators, if only columns are registered and names are words. -/
theorem sameTree_of_render_eq {sub sub' : SubqueryCompiler} {ctx ctx₁ ctx₁' : Context}
    {s s' s₁ s₁' : Session} {e e' : Expr} {sql sql' : Sql.Scalar}
    (hnames : FieldsNamed ctx.referenceOf) (he : e.Throughout (Expr.Plain ctx.referenceOf))
    (he' : e'.Throughout (Expr.Plain ctx.referenceOf))
    (hok : outcome (e.compile sub) ctx s = (.ok (sql, ctx₁), s₁))
    (hok' : outcome (e'.compile sub') ctx s' = (.ok (sql', ctx₁'), s₁'))
    (htext : sql.render ctx.dialect ctx.indent = sql'.render ctx.dialect ctx.indent) :
    e.SameTree ctx.referenceOf e' := by
  -- The text gives back the tree that was written, and that tree the operators of both.
  obtain ⟨hwritten, -⟩ := Expr.compile_yields he rfl hok
  obtain ⟨hwritten', -⟩ := Expr.compile_yields he' rfl hok'
  have hsql : sql = sql' :=
    (hwritten.readable hnames).eq_of_render_eq (hwritten'.readable hnames) htext
  subst hsql
  exact hwritten.sameTree hwritten'

/-- A context with two nodes of one field. -/
private def oneField : Context :=
  { dialect := .generic, aliases := [(1, ⟨"a0", "Id"⟩), (7, ⟨"a0", "Id"⟩)] }

/-- Null on the right of `!=`. -/
private def sumNotNull : Expr :=
  .unary 10 .not (.compare 11 .ne
    (.binary 12 .add (.column 1 "users" "Id") (.literal 13 (.int 1))) (.null 14))

/-- Null on its left, the other node of the field, and another value. -/
private def notNullSum : Expr :=
  .unary 20 .not (.compare 21 .ne (.literal 22 .null)
    (.binary 23 .add (.column 7 "users" "Id") (.literal 24 (.text "x"))))

theorem sameTree_of_render_eq_notNull :
    ((outcome (sumNotNull.compile (compileWithin 0)) oneField {}).1.map
      (·.1.render .generic 0)).toOption = some "NOT ((a0.Id + @p0) IS NOT NULL)" ∧
    ((outcome (notNullSum.compile (compileWithin 0)) oneField {}).1.map
      (·.1.render .generic 0)).toOption = some "NOT ((a0.Id + @p0) IS NOT NULL)" ∧
    sumNotNull.SameTree oneField.referenceOf notNullSum := by
  have hnames : FieldsNamed oneField.referenceOf := by
    intro id r h
    obtain ⟨l₁, l₂, hl, -⟩ := List.lookup_eq_some_iff.1 h
    have hmem : (id, r) ∈ oneField.aliases := by
      rw [hl]
      exact List.mem_append_right _ List.mem_cons_self
    have hr : r = ⟨"a0", "Id"⟩ := by
      rcases List.mem_pair.1 hmem with h | h <;> cases h <;> rfl
    rw [hr]
    exact ⟨Sql.isName_of_isWordChar (by decide), Sql.isName_of_isWordChar (by decide)⟩
  have hleaf : ∀ {e : Expr}, Expr.Plain oneField.referenceOf e → e.operands? = some [] →
      e.Throughout (Expr.Plain oneField.referenceOf) := fun h ho => .node h ho nofun
  have hpair : ∀ {e a b : Expr}, Expr.Plain oneField.referenceOf e → e.operands? = some [a, b] →
      a.Throughout (Expr.Plain oneField.referenceOf) →
      b.Throughout (Expr.Plain oneField.referenceOf) →
      e.Throughout (Expr.Plain oneField.referenceOf) := fun h ho ha hb =>
    .node h ho (List.forall_mem_cons.2 ⟨ha, List.forall_mem_singleton.2 hb⟩)
  refine ⟨by decide +kernel, by decide +kernel, ?_⟩
  refine sameTree_of_render_eq hnames
    (.node ⟨by decide, nofun⟩ rfl (List.forall_mem_singleton.2 ?_))
    (.node ⟨by decide, nofun⟩ rfl (List.forall_mem_singleton.2 ?_))
    (show outcome (sumNotNull.compile (compileWithin 0)) oneField {} = _ from rfl)
    (show outcome (notNullSum.compile (compileWithin 0)) oneField {} = _ from rfl) rfl
  · refine hpair ⟨by decide, nofun⟩ rfl ?_ (hleaf ⟨by decide, nofun⟩ rfl)
    exact hpair ⟨by decide, nofun⟩ rfl (hleaf ⟨by decide, nofun⟩ rfl)
      (hleaf ⟨by decide, nofun⟩ rfl)
  · refine hpair ⟨by decide, nofun⟩ rfl (hleaf ⟨by decide, nofun⟩ rfl) ?_
    exact hpair ⟨by decide, nofun⟩ rfl (hleaf ⟨by decide, nofun⟩ rfl)
      (hleaf ⟨by decide, nofun⟩ rfl)

end QueryCompiler
