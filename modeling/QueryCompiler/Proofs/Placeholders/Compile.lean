import QueryCompiler.Proofs.Outputs
import QueryCompiler.Proofs.Placeholders.Binding

/-! # `QueryCompiler.Proofs.Placeholders.Compile` — every bound value is written once

What is compiled is tidy, and the numbers of the bound values in its tree are those that were given
out while it was compiled, each of them once.  The order may differ: a projection is compiled last
and written first.
-/

namespace QueryCompiler

open Sql (MarkFree)
open CompileM (Binds)

variable {d : Dialect}

/-! ## What is written for the numbers given out -/

/-- A tidy expression in which the numbers occur once each. -/
def Sql.Scalar.Writes (d : Dialect) (is : List Nat) (e : Sql.Scalar) : Prop :=
  e.Tidy d ∧ e.bounds.Perm is

def Sql.Scalar.WritesAll (d : Dialect) (is : List Nat) (es : List Sql.Scalar) : Prop :=
  (∀ e ∈ es, e.Tidy d) ∧ (Sql.Scalar.boundsAll es).Perm is

/-- A tidy expression, if there is one, in which the numbers occur once each. -/
def Sql.Scalar.WritesOption (d : Dialect) (is : List Nat) (e : Option Sql.Scalar) : Prop :=
  (∀ x ∈ e, x.Tidy d) ∧ (Sql.Scalar.boundsOption e).Perm is

def Sql.Select.Writes (d : Dialect) (is : List Nat) (select : Sql.Select) : Prop :=
  select.Tidy d ∧ select.bounds.Perm is

/-- A tidy source in which the numbers occur once each, with a tidy row. -/
def SourceWrites (d : Dialect) (is : List Nat) (r : Sql.Source × Row) : Prop :=
  r.1.Tidy d ∧ r.1.bounds.Perm is ∧ r.2.Tidy d

/-- Tidy joins in which the numbers occur once each, with a tidy row. -/
def JoinsWrite (d : Dialect) (is : List Nat) (r : List Sql.Join × Row) : Prop :=
  (∀ join ∈ r.1, join.Tidy d) ∧ (Sql.Join.boundsAll r.1).Perm is ∧ r.2.Tidy d

/-- Tidy keys and a tidy condition in which the numbers occur once each, with a tidy row. -/
def GroupingWrites (d : Dialect) (is : List Nat)
    (r : List Sql.Scalar × Option Sql.Scalar × Row) : Prop :=
  (∀ key ∈ r.1, key.Tidy d) ∧ (∀ e ∈ r.2.1, e.Tidy d) ∧
    (Sql.Scalar.boundsAll r.1 ++ Sql.Scalar.boundsOption r.2.1).Perm is ∧ r.2.2.Tidy d

def OrderWrites (d : Dialect) (is : List Nat) (items : List Sql.OrderItem) : Prop :=
  (∀ item ∈ items, item.Tidy d) ∧ (Sql.OrderItem.boundsAll items).Perm is

/-- Tidy output columns in which the numbers occur once each; the fields have their names. -/
def ProjectionWrites (d : Dialect) (is : List Nat) (r : List Sql.Output × List Field) : Prop :=
  (∀ output ∈ r.1, output.Tidy d) ∧ (Sql.Output.boundsAll r.1).Perm is ∧
    ∀ field ∈ r.2, MarkFree d field.name

/-- A tidy statement in which the numbers occur once each, with the tidy row it leaves. -/
structure Compiled.Writes (d : Dialect) (is : List Nat) (c : Compiled) : Prop where
  select : c.select.Writes d is
  row : c.row.Tidy d
  fields : ∀ field ∈ c.fields, MarkFree d field.name

/-- Subqueries that are tidy are compiled to statements in which each number occurs once. -/
def SubqueryCompiler.Writes (d : Dialect) (sub : SubqueryCompiler) : Prop :=
  ∀ (query : Query) (scope : Scope), query.Obeys (.tidy d) → Scope.Tidy d scope →
    Binds d (Sql.Select.Writes d) (sub query scope)

/-! ## Expressions -/

theorem registeredOr_writes (id : NodeId) {own : CompileM Sql.Scalar}
    (h : Binds d (Sql.Scalar.Writes d) own) :
    Binds d (Sql.Scalar.Writes d) (registeredOr id own) := by
  refine (Binds.referenceOf id).bind ?_
  rintro _ (_ | ref) ⟨rfl, href⟩
  · exact h
  · obtain ⟨hq, hf⟩ := href ref rfl
    exact .pure ⟨.reference hq hf, .nil⟩

theorem compileLiteral_writes (value : Value) :
    Binds d (Sql.Scalar.Writes d) (compileLiteral value) := by
  unfold compileLiteral
  split
  · exact .pure ⟨.null, .nil⟩
  · refine Binds.withContext fun ctx _ => (Binds.bindValue _).bind ?_
    rintro _ index rfl
    exact .pure ⟨.bound, .refl _⟩

theorem requireOneColumn_writes (select : Sql.Select) :
    Binds d (fun is _ => is = [] ∧ True) (requireOneColumn select) := by
  unfold requireOneColumn
  dsimp only
  split
  · exact .pure ⟨rfl, trivial⟩
  · exact .throw _

theorem Expr.Assembles.bounds_eq {e : Expr} {es : List Expr} {ts : List Sql.Scalar} {t : Sql.Scalar}
    (h : e.Assembles es ts t) : t.bounds = Sql.Scalar.boundsAll ts := by
  cases h <;> simp [Sql.Scalar.bounds, Sql.Scalar.boundsAll]

namespace Expr.Tidy

variable {e : Expr} {es : List Expr} {ts : List Sql.Scalar} {t : Sql.Scalar}

theorem operands (he : e.Tidy d) (h : e.Assembles es ts t) : ∀ o ∈ es, o.Tidy d := by
  cases h <;> cases he <;> simp_all

/-- What is made of tidy operands is tidy. -/
theorem assembled (he : e.Tidy d) (h : e.Assembles es ts t) (hts : ∀ t ∈ ts, t.Tidy d) :
    t.Tidy d := by
  cases h <;> cases he <;> constructor <;> simp_all

end Expr.Tidy

section

variable {sub : SubqueryCompiler}

/-- The numbers given out for expressions are those of each, one after another. -/
theorem CompileM.Binds.compileAll : ∀ {es : List Expr},
    (∀ e ∈ es, Binds d (Sql.Scalar.Writes d) (e.compile sub)) →
      Binds d (fun is sqls => Sql.Scalar.WritesAll d is sqls ∧ sqls.length = es.length)
        (Expr.compileAll sub es)
  | [], _ => .pure ⟨⟨by simp, .nil⟩, rfl⟩
  | e :: es, h => by
      rw [List.forall_mem_cons] at h
      refine h.1.bind fun is sql hsql => (CompileM.Binds.compileAll h.2).bind fun js sqls hsqls => ?_
      refine .pure ⟨⟨List.forall_mem_cons.2 ⟨hsql.1, hsqls.1.1⟩, ?_⟩, congrArg (· + 1) hsqls.2⟩
      rw [List.append_nil]
      exact hsql.2.append hsqls.1.2

/-- An expression is written with each number given out for it, once. -/
theorem Expr.compile_writes (hsub : SubqueryCompiler.Writes d sub) {e : Expr} (he : e.Tidy d) :
    Binds d (Sql.Scalar.Writes d) (e.compile sub) := by
  induction e using Expr.form_induction with
  | refused _ hown =>
      rw [hown]
      exact registeredOr_writes _ (.throw _)
  | bound _ => exact registeredOr_writes _ (compileLiteral_writes _)
  | assembled hmake hown ih =>
      rw [hown]
      obtain ⟨_, _, ha⟩ := hmake.exists
      have hes := Binds.compileAll fun o ho => ih o ho (he.operands ha o ho)
      refine registeredOr_writes _ (hes.bind fun is ts hts => .pure ⟨?_, ?_⟩)
      · exact he.assembled (hmake ts hts.2) hts.1.1
      · rw [(hmake ts hts.2).bounds_eq, List.append_nil]
        exact hts.1.2
  | @membership id needle query scope ih =>
      cases he with
      | inQuery hn hq hs =>
          refine registeredOr_writes id ((ih hn).bind fun is n hn => ?_)
          refine (Binds.normalize query).bind ?_
          rintro _ _ ⟨rfl, rfl⟩
          refine ((hsub _ scope hq.obeys.normalize hs).indented 2).bind fun js select hselect => ?_
          refine (requireOneColumn_writes select).bind ?_
          rintro _ _ ⟨rfl, -⟩
          refine .pure ⟨.inSelect hn.1 hselect.1, ?_⟩
          simpa [Sql.Scalar.bounds] using hn.2.append hselect.2

theorem Expr.compileAll_writes (hsub : SubqueryCompiler.Writes d sub) {es : List Expr}
    (h : ∀ e ∈ es, e.Tidy d) :
    Binds d (fun is sqls => Sql.Scalar.WritesAll d is sqls ∧ sqls.length = es.length)
      (Expr.compileAll sub es) :=
  .compileAll fun e he => Expr.compile_writes hsub (h e he)

end

/-! ## Sources -/

theorem Table.Tidy.zip_ids {t : Table} (h : t.Tidy d) (columns : List Expr) :
    ∀ f ∈ (columns.map Expr.id).zip t.columns, MarkFree d f.2 :=
  fun _ hf => h.columns _ (List.of_mem_zip hf).2

theorem compileTable_writes {t : Table} (h : t.Tidy d) :
    Binds d (SourceWrites d) (compileTable t) := by
  refine (Binds.build h.instantiate).bind ?_
  rintro _ columns ⟨rfl, hcolumns⟩
  refine Binds.takeAlias.bind ?_
  rintro _ label ⟨rfl, hlabel⟩
  refine (Binds.registerAll hlabel (h.zip_ids columns)).bind ?_
  rintro _ _ ⟨rfl, -⟩
  exact .pure ⟨.table h.name hlabel, .nil, hcolumns⟩

theorem compileDerived_writes {is : List Nat} {inner : Compiled} (h : inner.Writes d is) :
    Binds d (fun js r => js = [] ∧ SourceWrites d is r) (compileDerived inner) := by
  refine Binds.takeAlias.bind ?_
  rintro _ label ⟨rfl, hlabel⟩
  have hfields : ∀ f ∈ (Field.firstUses [] inner.fields).map fun f => (f.expr.id, f.name),
      MarkFree d f.2 := by
    intro f hf
    obtain ⟨field, hmem, rfl⟩ := List.mem_map.1 hf
    exact h.fields field (Field.firstUses_subset [] _ hmem)
  refine (Binds.registerAll hlabel hfields).bind ?_
  rintro _ _ ⟨rfl, -⟩
  exact .pure ⟨rfl, .derived h.select.1 hlabel, h.select.2, h.row⟩

/-! ## Clauses -/

theorem boundsAll_orderItems : ∀ {sqls : List Sql.Scalar} {keys : List SortTerm},
    sqls.length = keys.length → Sql.OrderItem.boundsAll
      (List.zipWith (fun sql key => .mk sql key.direction) sqls keys) = Sql.Scalar.boundsAll sqls
  | [], _, _ => rfl
  | sql :: _, _ :: _, h => congrArg (sql.bounds ++ ·) (boundsAll_orderItems (Nat.succ.inj h))

theorem boundsAll_outputs : ∀ {sqls : List Sql.Scalar} {names : List String},
    sqls.length = names.length →
      Sql.Output.boundsAll (List.zipWith .mk sqls names) = Sql.Scalar.boundsAll sqls
  | [], _, _ => rfl
  | sql :: _, _ :: _, h => congrArg (sql.bounds ++ ·) (boundsAll_outputs (Nat.succ.inj h))

theorem Expr.Tidy.columnMarkFree {e : Expr} (h : e.Tidy d) : ColumnMarkFree d e := by
  cases h with
  | column ht hn => exact ⟨ht, hn⟩
  | _ => trivial

section

variable {sub : SubqueryCompiler} {scope : Scope}
  (hsub : SubqueryCompiler.Writes d sub) (hs : Scope.Tidy d scope)

include hsub hs

theorem compileJoin_writes {join : JoinTerm} (hj : join.Tidy d) {row : Row} (hr : row.Tidy d) :
    Binds d (fun is r => r.1.Tidy d ∧ (Sql.Join.boundsAll [r.1]).Perm is ∧ r.2.Tidy d)
      (compileJoin sub scope join row) := by
  cases hj with
  | @mk kind table outerKey innerKey result aliases ht ho hi hres _ =>
      refine (Binds.build ht.instantiate).bind ?_
      rintro _ columns ⟨rfl, hcolumns⟩
      refine Binds.takeAlias.bind ?_
      rintro _ label ⟨rfl, hlabel⟩
      refine (Binds.registerAll hlabel (ht.zip_ids columns)).bind ?_
      rintro _ _ ⟨rfl, -⟩
      have hinner : (Row.table table columns).Tidy d := hcolumns
      refine (Binds.build (ExprTerm.eval_tidy ho (hs.clause hr))).bind ?_
      rintro _ outer ⟨rfl, houter⟩
      refine (Expr.compile_writes hsub houter).bind fun is outerSql hos => ?_
      refine (Binds.build (ExprTerm.eval_tidy hi (hs.clause hinner))).bind ?_
      rintro _ inner ⟨rfl, hinnerKey⟩
      refine (Expr.compile_writes hsub hinnerKey).bind fun js innerSql his => ?_
      have hjoined : Scope.Tidy d (.joined row (.table table columns) :: scope) :=
        hs.cons fun e he => (List.mem_append.1 he).elim (hr e) (hinner e)
      refine (Binds.build (RowTerm.eval_tidy hres hjoined)).bind ?_
      rintro _ row ⟨rfl, hrow⟩
      refine .pure ⟨.mk ht.name hlabel hos.1 his.1, ?_, hrow⟩
      simpa [Sql.Join.boundsAll] using hos.2.append his.2

theorem compileJoins_writes : ∀ {joins : List JoinTerm} {row : Row},
    (∀ join ∈ joins, join.Tidy d) → row.Tidy d →
      Binds d (JoinsWrite d) (compileJoins sub scope joins row)
  | [], _, _, hr => .pure ⟨by simp, .nil, hr⟩
  | join :: joins, row, h, hr => by
      rw [List.forall_mem_cons] at h
      refine (compileJoin_writes hsub hs h.1 hr).bind fun is first hfirst => ?_
      refine (compileJoins_writes h.2 hfirst.2.2).bind fun js rest hrest => ?_
      refine .pure ⟨List.forall_mem_cons.2 ⟨hfirst.1, hrest.1⟩, ?_, hrest.2.2⟩
      obtain ⟨⟨kind, table, label, outer, inner⟩, _⟩ := first
      simpa [Sql.Join.boundsAll] using hfirst.2.1.append hrest.2.1

theorem compileJoinClause_writes {joins : Option (List JoinTerm)} {row : Row}
    (h : ∀ js ∈ joins, ∀ join ∈ js, join.Tidy d) (hr : row.Tidy d) :
    Binds d (JoinsWrite d) (compileJoinClause sub scope joins row) := by
  match joins with
  | none => exact .pure ⟨by simp, .nil, hr⟩
  | some [] => exact .throw _
  | some (join :: joins) => exact compileJoins_writes hsub hs (h _ rfl) hr

theorem compileCondition_writes {predicate : Option ExprTerm} {row : Row}
    (h : ∀ t ∈ predicate, t.Tidy d) (hr : row.Tidy d) :
    Binds d (Sql.Scalar.WritesOption d) (compileCondition sub scope predicate row) := by
  cases predicate with
  | none => exact .pure ⟨by simp, .nil⟩
  | some t =>
      refine (Binds.build (ExprTerm.eval_tidy (h t rfl) (hs.clause hr))).bind ?_
      rintro _ e ⟨rfl, he⟩
      refine (Expr.compile_writes hsub he).bind fun is sql hsql => ?_
      refine .pure ⟨by simpa using hsql.1, ?_⟩
      rw [List.append_nil]
      exact hsql.2

theorem compileGrouping_writes {grouping : Option Grouping} {row : Row}
    (h : ∀ g ∈ grouping, (∀ key ∈ g.keys, key.Tidy d) ∧ ∀ p ∈ g.having, p.Tidy d)
    (hr : row.Tidy d) : Binds d (GroupingWrites d) (compileGrouping sub scope grouping row) := by
  cases grouping with
  | none => exact .pure ⟨by simp, by simp, .nil, hr⟩
  | some g =>
      obtain ⟨hkeys, hhaving⟩ := h g rfl
      refine (Binds.build (ExprTerm.evalAll_tidy hkeys (hs.clause hr))).bind ?_
      rintro _ keys ⟨rfl, hk⟩
      show Binds d _ (if keys.isEmpty then _ else _)
      split
      · exact .throw _
      · refine (Expr.compileAll_writes hsub hk).bind fun is keySql hkeySql => ?_
        refine (compileCondition_writes hsub hs hhaving hr).bind fun js havingSql hh => ?_
        refine .pure ⟨hkeySql.1.1, hh.1, ?_, fun e he => ?_⟩
        · rw [List.append_nil]
          exact hkeySql.1.2.append hh.2
        · rw [Row.leaves, Row.leaves, Row.leavesAll_map_expr] at he
          exact (List.mem_append.1 he).elim (hk e) (hr e)

theorem compileOrder_writes {keys : List SortTerm} {row : Row} (h : ∀ key ∈ keys, key.Tidy d)
    (hr : row.Tidy d) : Binds d (OrderWrites d) (compileOrder sub scope keys row) := by
  have hterms : ∀ t ∈ keys.map (·.key), t.Tidy d := by
    intro t ht
    obtain ⟨key, hmem, rfl⟩ := List.mem_map.1 ht
    cases h key hmem with
    | mk hkey => exact hkey
  refine (Binds.build ((ExprTerm.evalAll_tidy hterms (hs.clause hr)).and
    (ExprTerm.evalAll_length _ _))).bind ?_
  rintro _ es ⟨rfl, hes, hlength⟩
  refine (Expr.compileAll_writes hsub hes).bind fun is sqls hsqls => .pure ⟨?_, ?_⟩
  · intro item hitem
    obtain ⟨i, hi, rfl⟩ := List.mem_iff_getElem.1 hitem
    rw [List.getElem_zipWith]
    exact .mk (hsqls.1.1 _ (List.getElem_mem _))
  · rw [boundsAll_orderItems (hsqls.2.trans (hlength.trans (List.length_map _))), List.append_nil]
    exact hsqls.1.2

end

theorem givenNames_writes {given : Option (List String)} (hg : ∀ names ∈ given, AliasesTidy d names)
    (width : Nat) :
    Binds d (fun is names => is = [] ∧ AliasesTidy d names) (givenNames given width) := by
  cases given with
  | none => exact .pure ⟨rfl, by simp [AliasesTidy]⟩
  | some names =>
      show Binds d _ (if names.length = width then _ else _)
      split
      · exact .pure ⟨rfl, hg names rfl⟩
      · refine (Binds.report _).bind ?_
        rintro _ _ ⟨rfl, -⟩
        exact .pure ⟨rfl, by simp [AliasesTidy]⟩

theorem compileProjection_writes {sub : SubqueryCompiler} (hsub : SubqueryCompiler.Writes d sub)
    {given : Option (List String)} (hg : ∀ names ∈ given, AliasesTidy d names) {row : Row}
    (hr : row.Tidy d) : Binds d (ProjectionWrites d) (compileProjection sub given row) := by
  have hes : ∀ e ∈ row.flatten, e.Tidy d := fun e he => hr e (row.flatten_subset he)
  unfold compileProjection
  dsimp only
  split
  · exact .throw _
  · refine (Expr.compileAll_writes hsub hes).bind fun is sqls hsqls => ?_
    refine (givenNames_writes hg _).bind ?_
    rintro _ given ⟨rfl, hgiven⟩
    refine Binds.withContext fun ctx hctx => ?_
    have hnames := markFree_outputNames (fun id r hr => (hctx.referenceOf id r hr).2) hgiven
      fun e he => (hes e he).columnMarkFree
    have hlength := length_outputNames ctx.referenceOf given row.flatten
    refine .pure ⟨?_, ?_, ?_⟩
    · intro output houtput
      obtain ⟨i, hi, rfl⟩ := List.mem_iff_getElem.1 houtput
      rw [List.getElem_zipWith]
      exact .mk (hsqls.1.1 _ (List.getElem_mem _)) (hnames _ (List.getElem_mem _))
    · rw [boundsAll_outputs (hsqls.2.trans hlength.symm)]
      simpa using hsqls.1.2
    · intro field hfield
      obtain ⟨i, hi, rfl⟩ := List.mem_iff_getElem.1 hfield
      rw [List.getElem_zipWith]
      exact hnames _ (List.getElem_mem _)

/-! ## Blocks -/

section

variable {sub : SubqueryCompiler} {scope : Scope}

theorem joinAliases_tidy {joins : Option (List JoinTerm)}
    (h : ∀ js ∈ joins, ∀ join ∈ js, join.Tidy d) :
    ∀ names ∈ joinAliases joins, AliasesTidy d names := by
  intro names hnames
  obtain ⟨join, hmem, hj⟩ := List.exists_of_findSome?_eq_some hnames
  rw [List.mem_reverse] at hmem
  cases joins with
  | none => cases hmem
  | some js =>
      cases h js rfl join hmem with
      | mk _ _ _ _ ha => exact ha names hj

theorem compileClauses_writes (hsub : SubqueryCompiler.Writes d sub) (hs : Scope.Tidy d scope)
    {clauses : Clauses} (hc : clauses.Obeys (.tidy d)) {stages : List RowTerm}
    (hst : ∀ stage ∈ stages, stage.Tidy d) {aliases : Option (List String)}
    (ha : ∀ names ∈ aliases, AliasesTidy d names) {is : List Nat} {source : Sql.Source} {row : Row}
    (hsource : SourceWrites d is (source, row)) :
    Binds d (fun js c => Compiled.Writes d (is ++ js) c)
      (compileClauses sub scope clauses stages aliases source row) := by
  obtain ⟨hst₁, hst₂, hr⟩ := hsource
  refine (compileJoinClause_writes hsub hs hc.joins hr).bind fun ij joins hj => ?_
  obtain ⟨joins, row⟩ := joins
  refine (compileCondition_writes hsub hs hc.filter hj.2.2).bind fun iw filter hw => ?_
  refine (compileGrouping_writes hsub hs hc.grouping hj.2.2).bind fun ig grouping hg => ?_
  obtain ⟨keys, having, row⟩ := grouping
  have horder : ∀ key ∈ clauses.order.getD [], key.Tidy d := by
    cases ho : clauses.order with
    | none => simp
    | some ks => exact hc.order ks ho
  refine (compileOrder_writes hsub hs horder hg.2.2.2).bind fun io order ho => ?_
  refine (Binds.build (RowTerm.runStages_tidy hs hst hg.2.2.2)).bind ?_
  rintro _ row ⟨rfl, hrow⟩
  have hgiven : ∀ names ∈ aliases.or (joinAliases clauses.joins), AliasesTidy d names := by
    intro names hnames
    rcases Option.or_eq_some_iff.1 hnames with h | ⟨-, h⟩
    · exact ha names h
    · exact joinAliases_tidy hc.joins names h
  refine (compileProjection_writes hsub hgiven hrow).bind fun ip projection hp => ?_
  obtain ⟨outputs, fields⟩ := projection
  refine .pure ⟨⟨.mk hp.1 hst₁ hj.1 hw.1 hg.1 hg.2.1 ho.1, ?_⟩, hrow, hp.2.2⟩
  -- The outputs stand in front in the text, and their numbers are the last to be given out.
  have hclauses : (source.bounds ++ (Sql.Join.boundsAll joins ++ (Sql.Scalar.boundsOption filter ++
      (Sql.Scalar.boundsAll keys ++ (Sql.Scalar.boundsOption having ++
        Sql.OrderItem.boundsAll order))))).Perm (is ++ (ij ++ (iw ++ (ig ++ io)))) := by
    rw [← List.append_assoc (Sql.Scalar.boundsAll keys)]
    exact hst₂.append (hj.2.1.append (hw.2.append (hg.2.2.1.append ho.2)))
  have hall := List.perm_append_comm.trans (hclauses.append hp.2.1)
  simpa [Sql.Select.bounds] using hall

mutual

theorem Block.compile_writes (hsub : SubqueryCompiler.Writes d sub) (hs : Scope.Tidy d scope) :
    ∀ {block : Block}, block.Obeys (.tidy d) →
      Binds d (Compiled.Writes d) (block.compile sub scope)
  | _, .mk hc hb hst ha => by
      refine Binds.withContext fun _ _ => (Binds.report _).bind ?_
      rintro _ _ ⟨rfl, -⟩
      refine (Base.compile_writes hsub hs hb).bind fun is source hsource => ?_
      obtain ⟨source, row⟩ := source
      exact compileClauses_writes hsub hs hc hst ha hsource

theorem Base.compile_writes (hsub : SubqueryCompiler.Writes d sub) (hs : Scope.Tidy d scope) :
    ∀ {base : Base}, base.Obeys (.tidy d) → Binds d (SourceWrites d) (base.compile sub scope)
  | _, .table h => compileTable_writes h
  | _, .derived h => by
      refine ((Block.compile_writes hsub hs h).indented 1).bind fun is inner hinner => ?_
      refine (compileDerived_writes hinner).mono ?_
      rintro _ r ⟨rfl, hr⟩
      rwa [List.append_nil]
  | _, .strayHaving => .throw _

end

theorem Query.compile_writes (hsub : SubqueryCompiler.Writes d sub) (hs : Scope.Tidy d scope)
    {q : Query} (h : q.Obeys (.tidy d)) : Binds d (Compiled.Writes d) (q.compile sub scope) := by
  unfold Query.compile
  split
  · next block hb => exact Block.compile_writes hsub hs (h.block? hb)
  · exact .throw _

end

theorem compileWithin_writes : ∀ depth : Nat, SubqueryCompiler.Writes d (compileWithin depth)
  | 0, _, _, _, _ => .throw _
  | depth + 1, query, scope, hq, hs => by
      refine (Query.compile_writes (compileWithin_writes depth) hs hq).bind fun is c hc => ?_
      refine .pure ?_
      rw [List.append_nil]
      exact hc.select

end QueryCompiler
