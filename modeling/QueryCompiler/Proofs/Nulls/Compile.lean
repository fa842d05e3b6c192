import QueryCompiler.Proofs.Courses
import QueryCompiler.Proofs.Placeholders.Binding

/-! # `QueryCompiler.Proofs.Nulls.Compile` — null is neither bound nor compared

A comparison with null is never true in the query language, and some drivers do not take null, or a
truth value, for a parameter.  Two things hold of all that is compiled, therefore.

    values         none that is bound is null; no dialect but the generic one binds a truth value
    comparisons    neither `=` nor `!=` has null for an operand

Both are kept by every step of a compilation.  `NullSafe` says so of the way from one moment to
another, with the comparisons that are written on it.  The keys of a join are set equal without a
comparison having been asked for, and are not meant.
-/

namespace QueryCompiler

open CompileM

/-! ## Values -/

/-- The value may be bound in the dialect. -/
def Value.Bindable (d : Dialect) (v : Value) : Prop :=
  v ≠ .null ∧ (d = .sqlite ∨ d = .sqlserver → ∀ b, v ≠ .bool b)

/-- Values are bound as the dialect encodes them. -/
theorem Dialect.encode_bindable (d : Dialect) {v : Value} (h : v.isNull = false) :
    (d.encode v).Bindable d := by
  cases v with
  | null => cases h
  | bool b => cases d <;> simp [Value.Bindable, Dialect.encode, Dialect.encodeBool]
  | _ => simp [Value.Bindable, Dialect.encode]

/-- The values that have been bound may be bound in the dialect. -/
structure Context.Bindable (d : Dialect) (ctx : Context) : Prop where
  dialect_eq : ctx.dialect = d
  values : ∀ p ∈ ctx.params, p.2.Bindable d

theorem forall_mem_setValue {P : Value → Prop} {name : String} {value : Value} (h : P value) :
    ∀ {params : List (String × Value)}, (∀ p ∈ params, P p.2) →
      ∀ p ∈ setValue name value params, P p.2
  | [], _ => List.forall_mem_singleton.2 h
  | (n, v) :: params, hparams => by
      rw [List.forall_mem_cons] at hparams
      rw [setValue]
      split
      · exact List.forall_mem_cons.2 ⟨h, hparams.2⟩
      · exact List.forall_mem_cons.2 ⟨hparams.1, forall_mem_setValue h hparams.2⟩

namespace Context.Bindable

variable {d : Dialect} {ctx : Context}

theorem empty (d : Dialect) : (Context.empty d).Bindable d := ⟨rfl, List.forall_mem_nil _⟩

theorem bind (h : ctx.Bindable d) {v : Value} (hv : v.isNull = false) :
    (ctx.bind (ctx.dialect.encode v)).Bindable d where
  dialect_eq := h.dialect_eq
  values := forall_mem_setValue (h.dialect_eq ▸ ctx.dialect.encode_bindable hv) h.values

end Context.Bindable

/-! ## Comparisons -/

namespace Sql

/-- Two written operands that are compared. -/
structure Comparison where
  op : CompareOp
  left : Scalar
  right : Scalar

/-- What is asked of the operands is not whether they equal null. -/
def Comparison.Proper (c : Comparison) : Prop :=
  c.op = .eq ∨ c.op = .ne → c.left ≠ .null ∧ c.right ≠ .null

mutual

/-- All comparisons in an expression, those in its subqueries included. -/
def Scalar.comparisons : Scalar → List Comparison
  | .reference .. | .bound _ | .named _ | .null | .countStar => []
  | .unary _ operand | .nullTest _ operand | .aggregate _ _ operand => operand.comparisons
  | .binary _ left right | .like left right => left.comparisons ++ right.comparisons
  | .compare op left right => ⟨op, left, right⟩ :: (left.comparisons ++ right.comparisons)
  | .case condition positive negative =>
    condition.comparisons ++ (positive.comparisons ++ negative.comparisons)
  | .inList needle values => needle.comparisons ++ Scalar.comparisonsAll values
  | .inSelect needle select => needle.comparisons ++ select.comparisons

def Scalar.comparisonsAll : List Scalar → List Comparison
  | [] => []
  | e :: es => e.comparisons ++ Scalar.comparisonsAll es

def Scalar.comparisonsOption : Option Scalar → List Comparison
  | none => []
  | some e => e.comparisons

def Output.comparisonsAll : List Output → List Comparison
  | [] => []
  | .mk value _ :: outputs => value.comparisons ++ Output.comparisonsAll outputs

def Source.comparisons : Source → List Comparison
  | .table .. => []
  | .derived select _ => select.comparisons

def Join.comparisonsAll : List Join → List Comparison
  | [] => []
  | .mk _ _ _ outer inner :: joins =>
    outer.comparisons ++ (inner.comparisons ++ Join.comparisonsAll joins)

def OrderItem.comparisonsAll : List OrderItem → List Comparison
  | [] => []
  | .mk key _ :: items => key.comparisons ++ OrderItem.comparisonsAll items

/-- All comparisons in a statement, those in its derived tables and subqueries included. -/
def Select.comparisons : Select → List Comparison
  | .mk outputs source joins filter keys having order =>
    Output.comparisonsAll outputs ++ (source.comparisons ++ (Join.comparisonsAll joins ++
      (Scalar.comparisonsOption filter ++ (Scalar.comparisonsAll keys ++
        (Scalar.comparisonsOption having ++ OrderItem.comparisonsAll order)))))

end

def Change.comparisons : Change → List Comparison
  | .delete _ filter => Scalar.comparisonsOption filter
  | .update _ assignments filter =>
    Scalar.comparisonsAll (assignments.map (·.2)) ++ Scalar.comparisonsOption filter
  | .insert _ values => Scalar.comparisonsAll (values.map (·.2))

theorem Scalar.comparisonsOption_eq (e : Option Scalar) :
    comparisonsOption e = comparisonsAll e.toList := by
  cases e with
  | none => rfl
  | some e => exact (List.append_nil _).symm

theorem Output.comparisonsAll_eq (outputs : List Output) :
    comparisonsAll outputs = Scalar.comparisonsAll (outputs.map (·.value)) := by
  induction outputs with
  | nil => rfl
  | cons output outputs ih =>
      obtain ⟨value, name⟩ := output
      exact congrArg (value.comparisons ++ ·) ih

theorem OrderItem.comparisonsAll_eq (items : List OrderItem) :
    comparisonsAll items = Scalar.comparisonsAll (items.map (·.key)) := by
  induction items with
  | nil => rfl
  | cons item items ih =>
      obtain ⟨key, direction⟩ := item
      exact congrArg (key.comparisons ++ ·) ih

/-- The comparisons of a statement in the order in which its clauses are compiled. -/
theorem Select.mem_comparisons {s : Select} {c : Comparison} (h : c ∈ s.comparisons) :
    c ∈ s.source.comparisons ++ (Join.comparisonsAll s.joins ++
      (Scalar.comparisonsAll s.filter.toList ++ (Scalar.comparisonsAll s.keys ++
        (Scalar.comparisonsAll s.having.toList ++ (Scalar.comparisonsAll (s.order.map (·.key)) ++
          Scalar.comparisonsAll (s.outputs.map (·.value))))))) := by
  obtain ⟨outputs, source, joins, filter, keys, having, order⟩ := s
  rw [Select.comparisons, Output.comparisonsAll_eq, OrderItem.comparisonsAll_eq,
    Scalar.comparisonsOption_eq, Scalar.comparisonsOption_eq, List.mem_append] at h
  simp only [Select.source, Select.joins, Select.filter, Select.keys, Select.having, Select.order,
    Select.outputs, ← List.append_assoc, List.mem_append] at h ⊢
  rcases h with h | h
  · exact .inr h
  · exact .inl h

end Sql

/-! ## From one moment to another -/

/-- On the way only values are bound that may be, and the comparisons that are written on it are
proper. -/
structure NullSafe (d : Dialect) (μ : Moment) (comparisons : List Sql.Comparison) (ν : Moment) :
    Prop where
  bindable : μ.context.Bindable d → ν.context.Bindable d
  proper : ∀ c ∈ comparisons, c.Proper

namespace NullSafe

variable {d : Dialect} {μ κ ν : Moment} {cs cs' : List Sql.Comparison}

/-- Nothing is bound and nothing is written. -/
theorem still (hdialect : ν.context.dialect = μ.context.dialect)
    (hparams : ν.context.params = μ.context.params) : NullSafe d μ [] ν where
  bindable h := ⟨hdialect.trans h.dialect_eq, hparams ▸ h.values⟩
  proper := List.forall_mem_nil _

theorem of_context_eq (h : μ.context = ν.context) : NullSafe d μ [] ν :=
  still (h ▸ rfl) (h ▸ rfl)

theorem append (h : NullSafe d μ cs κ) (h' : NullSafe d κ cs' ν) : NullSafe d μ (cs ++ cs') ν where
  bindable hμ := h'.bindable (h.bindable hμ)
  proper := List.forall_mem_append.2 ⟨h.proper, h'.proper⟩

theorem build {α : Type} {b : Build α} {a : α} (h : (CompileM.build b).Takes μ a ν) :
    NullSafe d μ [] ν :=
  of_context_eq (takes_build.1 h).2.1

theorem registerAll {qualifier : String} {fields : List (NodeId × String)} {u : Unit}
    (h : (CompileM.registerAll qualifier fields).Takes μ u ν) : NullSafe d μ [] ν := by
  obtain ⟨hν, -⟩ := registerAll_eq_ok.1 h
  have hevolves := Context.Evolves.registerAll qualifier fields μ.context
  exact still (hν ▸ hevolves.dialect_eq) (hν ▸ Context.Tidy.params_registerAll ..)

theorem takeAlias {label : String} (h : CompileM.takeAlias.Takes μ label ν) :
    NullSafe d μ [] ν := by
  obtain ⟨-, hν, -⟩ := takeAlias_eq_ok.1 h
  exact still (hν ▸ rfl) (hν ▸ rfl)

theorem normalize {q normal : Query} (h : (CompileM.normalize q).Takes μ normal ν) :
    NullSafe d μ [] ν := by
  obtain ⟨trace, hn⟩ := outcome_normalize q μ.context μ.session
  have hn : (CompileM.normalize q).Takes μ q.normalize ⟨μ.context, { μ.session with trace := trace }⟩ :=
    hn
  rw [(h.unique hn).2]
  exact of_context_eq rfl

theorem indented {α : Type} {levels : Nat} {m : CompileM α} {a : α}
    (h : (CompileM.indented levels m).Takes μ a ν)
    (hm : ∀ κ, m.Takes (μ.deeper levels) a κ → NullSafe d (μ.deeper levels) cs κ) :
    NullSafe d μ cs ν := by
  obtain ⟨ctx, hinner, hν⟩ := indented_eq_ok.1 h
  have hsafe := hm ⟨ctx, ν.session⟩ hinner
  refine ⟨fun hμ => ?_, hsafe.proper⟩
  have hctx := hsafe.bindable ⟨hμ.dialect_eq, hμ.values⟩
  exact hν ▸ ⟨hctx.dialect_eq, hctx.values⟩

end NullSafe

/-! ## Expressions -/

def SubqueryCompiler.NullSafe (d : Dialect) (sub : SubqueryCompiler) : Prop :=
  ∀ {q scope μ select ν}, (sub q scope).Takes μ select ν →
    QueryCompiler.NullSafe d μ select.comparisons ν

section

variable {d : Dialect} {sub : SubqueryCompiler} {scope : Scope} {μ ν : Moment}

/-- Only null is written as null. -/
theorem Writes.isNullLiteral_of_null {e : Expr} (h : Writes sub e μ .null ν) :
    e.isNullLiteral = true := by
  cases h with
  | assembled _ ha _ =>
      cases ha with
      | null => rfl
      | nullLiteral hnull => exact hnull

theorem CompareOp.nullTest?_ne_none {op : CompareOp} (h : op = .eq ∨ op = .ne) :
    op.nullTest? ≠ none := by
  rcases h with rfl | rfl <;> exact Option.some_ne_none _

/-- What is put together compares no more than its parts do, but for a comparison itself; and that is
proper, since its operands are looked at before they are written. -/
theorem Expr.Assembles.proper {e : Expr} {es : List Expr} {ts : List Sql.Scalar} {t : Sql.Scalar}
    (ha : e.Assembles es ts t) (hes : WritesAll sub es μ ts ν)
    (h : ∀ c ∈ Sql.Scalar.comparisonsAll ts, c.Proper) : ∀ c ∈ t.comparisons, c.Proper := by
  cases ha with
  | @compare id op e e' t t' hnull =>
      have hown : Sql.Comparison.Proper ⟨op, t, t'⟩ := by
        intro hop
        obtain ⟨hleft, hright⟩ := hnull.resolve_left (CompareOp.nullTest?_ne_none hop)
        cases hes with
        | cons he hes =>
            cases hes with
            | cons he' _ =>
                constructor
                · rintro rfl
                  exact Bool.false_ne_true (hleft.symm.trans he.isNullLiteral_of_null)
                · rintro rfl
                  exact Bool.false_ne_true (hright.symm.trans he'.isNullLiteral_of_null)
      rw [Sql.Scalar.comparisons, List.forall_mem_cons]
      exact ⟨hown, by simpa [Sql.Scalar.comparisonsAll] using h⟩
  | null | nullLiteral | parameter | countStar => exact List.forall_mem_nil _
  | _ => simpa [Sql.Scalar.comparisons, Sql.Scalar.comparisonsAll] using h

mutual

theorem Writes.nullSafe (hsub : sub.NullSafe d) : ∀ {e : Expr} {μ : Moment} {t : Sql.Scalar}
    {ν : Moment}, Writes sub e μ t ν → NullSafe d μ t.comparisons ν
  | _, _, _, _, .registered _ => .of_context_eq rfl
  | _, _, _, _, .bound _ hnull => ⟨fun hμ => hμ.bind hnull, List.forall_mem_nil _⟩
  | _, _, _, _, .assembled _ ha hes =>
      ⟨(hes.nullSafe hsub).bindable, ha.proper hes (hes.nullSafe hsub).proper⟩
  | _, _, _, _, .subquery _ hneedle hnormal hselect _ =>
      (hneedle.nullSafe hsub).append
        ((NullSafe.normalize hnormal).append (.indented hselect fun _ h => hsub h))

theorem WritesAll.nullSafe (hsub : sub.NullSafe d) : ∀ {es : List Expr} {μ : Moment}
    {ts : List Sql.Scalar} {ν : Moment}, WritesAll sub es μ ts ν →
      NullSafe d μ (Sql.Scalar.comparisonsAll ts) ν
  | _, _, _, _, .nil => .of_context_eq rfl
  | _, _, _, _, .cons he hes => (he.nullSafe hsub).append (hes.nullSafe hsub)

end

theorem Batch.nullSafe (hsub : sub.NullSafe d) {build : Build (List Expr)} (b : Batch sub build μ) :
    NullSafe d μ (Sql.Scalar.comparisonsAll b.texts) b.stop :=
  (NullSafe.build b.built).append (b.writes.nullSafe hsub)

/-! ## Statements -/

theorem compileTable_nullSafe {t : Table} {r : Sql.Source × Row} (h : (compileTable t).Takes μ r ν) :
    NullSafe d μ r.1.comparisons ν := by
  simp only [compileTable, takes_bind, takes_pure] at h
  obtain ⟨columns, κ, hcolumns, label, ξ, hlabel, _, _, hregister, rfl, rfl⟩ := h
  exact (NullSafe.build hcolumns).append ((NullSafe.takeAlias hlabel).append (.registerAll hregister))

theorem compileDerived_nullSafe {inner : Compiled} {r : Sql.Source × Row}
    (h : (compileDerived inner).Takes μ r ν) :
    NullSafe d μ [] ν ∧ r.1.comparisons = inner.select.comparisons := by
  simp only [compileDerived, takes_bind, takes_pure] at h
  obtain ⟨label, ξ, hlabel, _, _, hregister, rfl, rfl⟩ := h
  exact ⟨(NullSafe.takeAlias hlabel).append (.registerAll hregister), rfl⟩

theorem JoinsRun.nullSafe (hsub : sub.NullSafe d) {joins : List JoinTerm} {row row' : Row}
    {keys : List (List Expr × Moment)} {sqls : List Sql.Join}
    (h : JoinsRun sub scope joins row μ keys sqls row' ν) :
    NullSafe d μ (Sql.Join.comparisonsAll sqls) ν := by
  induction h with
  | nil => exact .of_context_eq rfl
  | cons outerKey innerKey htable houter hinner hpaired _ ih =>
      have hkeys := (outerKey.nullSafe hsub).append (innerKey.nullSafe hsub)
      rw [houter, hinner] at hkeys
      have hjoin := (compileTable_nullSafe htable).append (hkeys.append (.build hpaired))
      simpa [Sql.Join.comparisonsAll, Sql.Source.comparisons, Sql.Scalar.comparisonsAll] using
        hjoin.append ih

mutual

theorem Block.nullSafe (hsub : sub.NullSafe d) : ∀ (block : Block) {compiled : Compiled}
    {μ ν : Moment}, (block.compile sub scope).Takes μ compiled ν →
      NullSafe d μ compiled.select.comparisons ν
  | .mk body clauses base stages aliases, _, μ, _, h => by
      obtain ⟨run, rfl, rfl⟩ := exists_statementRun h
      have hbase := (NullSafe.of_context_eq run.entered_eq).append
        (Base.nullSafe hsub base run.base_takes)
      have hjoins := run.joins_run.nullSafe hsub
      have hconditions := (run.filter.nullSafe hsub).append
        ((run.keys.nullSafe hsub).append (run.having.nullSafe hsub))
      have hlists := (run.order.nullSafe hsub).append
        ((run.outputs.nullSafe hsub).append (.of_context_eq run.stop_eq.symm))
      have hrun := hbase.append (hjoins.append (hconditions.append hlists))
      refine ⟨hrun.bindable, fun c hc => hrun.proper c ?_⟩
      have hmem := Sql.Select.mem_comparisons hc
      rw [run.source_eq, run.filter_eq, run.keys_eq, run.having_eq, run.order_eq, run.outputs_eq] at hmem
      simpa using hmem

theorem Base.nullSafe (hsub : sub.NullSafe d) : ∀ (base : Base) {μ ν : Moment}
    {r : Sql.Source × Row}, (base.compile sub scope).Takes μ r ν → NullSafe d μ r.1.comparisons ν
  | .table t, _, _, _, h => compileTable_nullSafe h
  | .derived block, μ, _, r, h => by
      rw [Base.compile, takes_bind] at h
      obtain ⟨inner, κ, hinner, hderived⟩ := h
      obtain ⟨hopened, hsource⟩ := compileDerived_nullSafe hderived
      have hblock : NullSafe d μ inner.select.comparisons κ :=
        .indented hinner fun _ h => Block.nullSafe hsub block h
      have hsafe := hblock.append hopened
      rwa [List.append_nil, ← hsource] at hsafe
  | .strayHaving _, _, _, _, h => (takes_throw.1 h).elim

end

theorem Query.nullSafe (hsub : sub.NullSafe d) {q : Query} {compiled : Compiled}
    (h : (q.compile sub scope).Takes μ compiled ν) :
    NullSafe d μ compiled.select.comparisons ν := by
  obtain ⟨block, -, hblock⟩ := Query.takes_compile.1 h
  exact block.nullSafe hsub hblock

theorem compileWithin_nullSafe (d : Dialect) : ∀ depth : Nat, (compileWithin depth).NullSafe d
  | 0 => fun h => (takes_throw.1 h).elim
  | depth + 1 => fun h => by
      obtain ⟨compiled, hcompiled, rfl⟩ := takes_compileWithin_succ.1 h
      exact Query.nullSafe (compileWithin_nullSafe d depth) hcompiled

/-! ## Statements that change rows -/

theorem compileTarget_nullSafe {t : Table} {row : Row} (h : (compileTarget t).Takes μ row ν) :
    NullSafe d μ [] ν := by
  simp only [compileTarget, takes_bind, takes_pure] at h
  obtain ⟨columns, κ, hcolumns, _, _, hregister, rfl, rfl⟩ := h
  exact (NullSafe.build hcolumns).append (.registerAll hregister)

theorem compileCondition_nullSafe (hsub : sub.NullSafe d) {predicate : Option ExprTerm} {row : Row}
    {r : Option Sql.Scalar} (h : (compileCondition sub scope predicate row).Takes μ r ν) :
    NullSafe d μ (Sql.Scalar.comparisonsOption r) ν := by
  obtain ⟨b, hr, rfl⟩ := exists_batch_of_condition h
  rw [Sql.Scalar.comparisonsOption_eq, hr]
  exact b.nullSafe hsub

theorem compileAssignments_nullSafe (hsub : sub.NullSafe d) {t : Table} {row : Row} :
    ∀ {assignments : List (String × Assigned)} {μ ν : Moment} {r : List (String × Sql.Scalar)},
      (compileAssignments sub scope t row assignments).Takes μ r ν →
        NullSafe d μ (Sql.Scalar.comparisonsAll (r.map (·.2))) ν
  | [], _, _, _, h => by
      obtain ⟨rfl, rfl⟩ := takes_pure.1 h
      exact .of_context_eq rfl
  | (column, value) :: rest, _, _, _, h => by
      simp only [compileAssignments, takes_bind, takes_pure] at h
      obtain ⟨_, _, hcolumn, e, κ, he, sql, ξ, hsql, sqls, _, hrest, rfl, rfl⟩ := h
      obtain rfl := takes_requireColumn hcolumn
      have hvalue := (NullSafe.build he).append ((e.writes hsql).nullSafe hsub)
      exact hvalue.append (compileAssignments_nullSafe hsub hrest)

theorem Statement.nullSafe (hsub : sub.NullSafe d) {st : Statement} {change : Sql.Change}
    (h : (st.compile sub scope).Takes μ change ν) : NullSafe d μ change.comparisons ν := by
  cases st with
  | delete s =>
      simp only [Statement.compile, Delete.compile, takes_bind, takes_pure] at h
      obtain ⟨row, κ, hrow, _, _, hfilter, rfl, rfl⟩ := h
      exact (compileTarget_nullSafe hrow).append (compileCondition_nullSafe hsub hfilter)
  | update s =>
      simp only [Statement.compile, Update.compile] at h
      split at h
      · exact (takes_throw.1 h).elim
      · simp only [takes_bind, takes_pure] at h
        obtain ⟨row, κ, hrow, _, ξ, hassignments, _, _, hfilter, rfl, rfl⟩ := h
        have hassigned := (compileTarget_nullSafe hrow).append
          (compileAssignments_nullSafe hsub hassignments)
        exact hassigned.append (compileCondition_nullSafe hsub hfilter)
  | insert s =>
      simp only [Statement.compile, Insert.compile] at h
      split at h
      · exact (takes_throw.1 h).elim
      · simp only [takes_bind, takes_pure] at h
        obtain ⟨values, _, hvalues, rfl, rfl⟩ := h
        exact compileAssignments_nullSafe hsub hvalues

end

/-! ## Whole compilations -/

/-- No value of the parameters is null, nor a truth value where the dialect has none, and the
comparisons are proper. -/
structure NeverNull (d : Dialect) (params : List (String × Value))
    (comparisons : List Sql.Comparison) : Prop where
  values : ∀ p ∈ params, p.2.Bindable d
  proper : ∀ c ∈ comparisons, c.Proper

theorem NullSafe.neverNull {d : Dialect} {μ ν : Moment} {cs : List Sql.Comparison}
    (h : NullSafe d μ cs ν) (hμ : μ.context = .empty d) : NeverNull d ν.context.params cs :=
  ⟨(h.bindable (hμ ▸ .empty d)).values, h.proper⟩

theorem Query.CompilesTo.neverNull {d : Dialect} {scope : Scope} {session : Session} {q : Query}
    {compiled : Compiled} {last : Context} (h : q.CompilesTo d scope session compiled last) :
    NeverNull d last.params compiled.select.comparisons := by
  obtain ⟨μ, ν, hμ, hcompiled, rfl⟩ := Query.compilesTo_iff.1 h
  obtain ⟨_, κ, hreport, hnormal⟩ := takes_bind.1 hμ
  have hentered : NullSafe d ⟨.empty d, session⟩ [] μ :=
    (NullSafe.of_context_eq (report_eq_ok.1 hreport).1).append (.normalize hnormal)
  exact (hentered.append (Query.nullSafe (compileWithin_nullSafe d _) hcompiled)).neverNull rfl

theorem Statement.neverNull {d : Dialect} {scope : Scope} {st : Statement} {s s' : Session}
    {change : Sql.Change} {last : Context}
    (h : (st.compileIn scope).Takes ⟨.empty d, s⟩ change ⟨last, s'⟩) :
    NeverNull d last.params change.comparisons :=
  (Statement.nullSafe (compileWithin_nullSafe d _) h).neverNull rfl

end QueryCompiler
