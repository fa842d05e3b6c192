import QueryCompiler.Proofs.Outputs
import QueryCompiler.Proofs.Scoping.Plain
import QueryCompiler.Proofs.Scoping.References

/-! # `QueryCompiler.Proofs.Scoping.Compile` — statements read what they offer

The clauses of a plain query are evaluated over one row, and the row reads the fields that the
statement offers at that point: those of its base, then with each join those of the joined table.
What is compiled from the row refers to these fields alone.  A derived table takes over all
expressions of its row, since no group hides any of them; from then on they are read from it.
-/

namespace QueryCompiler

open CompileM (Leads Grows)

variable {l : Ledger} {fields : List Reference}

/-! ## Expressions -/

/-- The expression reads no other fields. -/
def Sql.Scalar.ReadsOnly (fields : List Reference) (e : Sql.Scalar) : Prop := e.references ⊆ fields

theorem registeredOr_reads {e : Expr} (h : e.Reads l fields) {own : CompileM Sql.Scalar}
    (hown : ∀ operands, e.operands? = some operands → (∀ o ∈ operands, o.Reads l fields) →
      Grows l (fun _ sql => sql.ReadsOnly fields) own) :
    Grows l (fun _ sql => sql.ReadsOnly fields) (registeredOr e.id own) := by
  refine (Grows.referenceOf e.id).bind ?_
  rintro l _ - ⟨rfl, rfl⟩
  cases hr : l.read e.id with
  | none =>
      obtain ⟨operands, ho, hoperands⟩ := h.of_unread hr
      exact hown operands ho hoperands
  | some r => exact .pure (List.cons_subset.2 ⟨h.of_read hr, List.nil_subset _⟩)

theorem compileLiteral_reads (value : Value) :
    Grows l (fun _ sql => sql.ReadsOnly fields) (compileLiteral value) := by
  unfold compileLiteral
  split
  · exact .pure (List.nil_subset _)
  · exact Grows.withContext fun _ _ => (Grows.bindValue _).bind fun _ _ _ _ =>
      .pure (List.nil_subset _)

section

variable {sub : SubqueryCompiler}

theorem CompileM.Grows.compileAll : ∀ {es : List Expr} {l : Ledger},
    (∀ e ∈ es, ∀ l', l.Grows l' → Grows l' (fun _ sql => sql.ReadsOnly fields) (e.compile sub)) →
      Grows l (fun _ sqls => Sql.Scalar.referencesAll sqls ⊆ fields ∧ sqls.length = es.length)
        (Expr.compileAll sub es)
  | [], _, _ => .pure ⟨List.nil_subset _, rfl⟩
  | _ :: _, l, h => by
      rw [List.forall_mem_cons] at h
      refine (h.1 l (.refl l)).bind fun l₁ sql hl₁ hsql => ?_
      have hes := CompileM.Grows.compileAll fun e he l' hl' => h.2 e he l' (hl₁.trans hl')
      refine hes.bind fun _ sqls _ hsqls => .pure ⟨?_, congrArg (· + 1) hsqls.2⟩
      exact List.append_subset.2 ⟨hsql, hsqls.1⟩

/-- An expression that reads the fields is written with references to them alone. -/
theorem Expr.compile_reads {e : Expr} {l : Ledger} (h : e.Reads l fields) :
    Grows l (fun _ sql => sql.ReadsOnly fields) (e.compile sub) := by
  induction e using Expr.form_induction generalizing l with
  | refused _ hown =>
      rw [hown]
      exact registeredOr_reads h fun _ _ _ => .throw _
  | bound _ => exact registeredOr_reads h fun _ _ _ => compileLiteral_reads _
  | assembled hmake hown ih =>
      rw [hown]
      refine registeredOr_reads h fun operands ho hr => ?_
      obtain ⟨_, _, ha⟩ := hmake.exists
      have hes := CompileM.Grows.compileAll fun o hmem l' hl =>
        ih o hmem ((hr o (Expr.children_eq ho ▸ ha.subset hmem)).grow hl)
      refine hes.bind fun _ ts _ hts => .pure ?_
      rw [Sql.Scalar.ReadsOnly, (hmake ts hts.2).references_eq]
      exact hts.1
  | membership _ => exact registeredOr_reads h nofun

theorem Expr.compileAll_reads {es : List Expr} {l : Ledger} (h : ∀ e ∈ es, e.Reads l fields) :
    Grows l (fun _ sqls => Sql.Scalar.referencesAll sqls ⊆ fields ∧ sqls.length = es.length)
      (Expr.compileAll sub es) :=
  .compileAll fun e he _ hl => Expr.compile_reads ((h e he).grow hl)

end

/-! ## Sources -/

section

variable {α : Type} {Q : Ledger → α → Prop}

/-- The new columns of a table are read from the alias that the table is given. -/
theorem withTable_grows (t : Table) {rest : List Expr → String → CompileM α}
    (h : ∀ l' columns label, l.Grows l' →
      (∀ e ∈ columns, e.Reads l' (t.columns.map (⟨label, ·⟩))) → Grows l' Q (rest columns label)) :
    Grows l Q (do
      let columns ← CompileM.build t.instantiate
      let label ← CompileM.takeAlias
      CompileM.registerAll label ((columns.map Expr.id).zip t.columns)
      rest columns label) := by
  have hbuild : Build.Grows l (fun l' es => es.length = t.columns.length ∧
      ∀ e ∈ es, ¬ l.Given e.id ∧ e.Reads l' []) t.instantiate :=
    Table.columnNodes_grows t.name t.columns
  refine Leads.bind (Grows.build hbuild) ?_
  rintro l₁ columns ⟨hl₁, hlength, hnew⟩
  refine Leads.bind Grows.takeAlias ?_
  rintro l₂ label ⟨hl₂, -⟩
  have hids : ((columns.map Expr.id).zip t.columns).map (·.1) = columns.map Expr.id :=
    List.map_fst_zip (by simp [hlength])
  have hgiven : ∀ f ∈ (columns.map Expr.id).zip t.columns, l₂.Given f.1 := by
    intro f hf
    obtain ⟨e, he, hid⟩ := List.mem_map.1 (List.of_mem_zip hf).1
    exact hid ▸ hl₂.given (hnew e he).2.given
  refine Leads.bind (CompileM.registerAll_leads hgiven) ?_
  intro l₃ _ hregistered
  have hl₃ : l.Grows l₃ := by
    have hl := hl₁.trans hl₂
    refine ⟨?_, ?_, fun {id} hid => ?_⟩
    · rw [hregistered.supply_eq]
      exact hl.ids_eq
    · rw [hregistered.supply_eq]
      exact hl.used_le
    · refine (hregistered.elsewhere id ?_).trans (hl.read_eq hid)
      rw [hids]
      intro hmem
      obtain ⟨e, he, rfl⟩ := List.mem_map.1 hmem
      exact (hnew e he).1 hid
  refine Leads.mono (h l₃ columns label hl₃ ?_) fun _ _ h => ⟨hl₃.trans h.1, h.2⟩
  intro e he
  obtain ⟨f, hf, hid⟩ := List.mem_map.1 (hids ▸ List.mem_map_of_mem he)
  obtain ⟨g, hg, hread⟩ := hregistered.here f hf
  exact .registered (hid ▸ hread) (List.mem_map_of_mem (List.of_mem_zip hg).2)

end

variable {columnsOf : String → List String}

/-- The statements inside the source are scoped, and the row reads what the source offers. -/
structure SourceScoped (columnsOf : String → List String) (l : Ledger) (r : Sql.Source × Row) :
    Prop where
  statements : ∀ s ∈ r.1.statements, s.references ⊆ s.offers columnsOf
  row : r.2.Flat (Expr.Reads l (r.1.offers columnsOf))

theorem compileTable_scoped {t : Table} (ht : t.columns ⊆ columnsOf t.name) :
    Grows l (SourceScoped columnsOf) (compileTable t) := by
  refine withTable_grows t fun l' columns label _ hcolumns => .pure ⟨?_, ?_⟩
  · simp [Sql.Source.statements]
  · exact .table fun e he => (hcolumns e he).widen (List.map_subset _ ht)

/-- A statement that is scoped, with a flat row whose expressions are its output columns. -/
structure Compiled.Scoped (columnsOf : String → List String) (l : Ledger) (c : Compiled) :
    Prop where
  select : c.select.Scoped columnsOf
  row : c.row.Flat fun e => l.Given e.id
  exprs_eq : c.fields.map Field.expr = c.row.flatten
  names_eq : c.fields.map Field.name = c.select.outputs.map Sql.Output.name

/-- All expressions of a derived table's row are read from it. -/
theorem compileDerived_scoped {inner : Compiled} (h : inner.Scoped columnsOf l) :
    Leads l (SourceScoped columnsOf) (compileDerived inner) := by
  refine Leads.bind Grows.takeAlias ?_
  rintro l₁ label ⟨hl₁, -⟩
  have hexpr : ∀ f ∈ inner.fields, f.expr ∈ inner.row.flatten := fun f hf =>
    h.exprs_eq ▸ List.mem_map_of_mem hf
  have hgiven : ∀ f ∈ (Field.firstUses [] inner.fields).map fun f => (f.expr.id, f.name),
      l₁.Given f.1 := by
    intro f hf
    obtain ⟨field, hmem, rfl⟩ := List.mem_map.1 hf
    exact hl₁.given (h.row.flatten _ (hexpr field (Field.firstUses_subset [] _ hmem)))
  refine (CompileM.registerAll_leads hgiven).bind fun l₂ _ hregistered => ?_
  refine Grows.leads (.pure ⟨h.select, h.row.of_flatten fun e he => ?_⟩)
  obtain ⟨f, hf, rfl⟩ := List.mem_map.1 (h.exprs_eq ▸ he)
  obtain ⟨first, hfirst, hid⟩ := (Field.exists_firstUses [] hf).resolve_left List.not_mem_nil
  obtain ⟨g, hg, hread⟩ := hregistered.here _ (List.mem_map_of_mem hfirst)
  refine .registered (hid ▸ hread) ?_
  obtain ⟨field, hfield, rfl⟩ := List.mem_map.1 hg
  have hname : field.name ∈ inner.select.outputs.map Sql.Output.name :=
    h.names_eq ▸ List.mem_map_of_mem (Field.firstUses_subset [] _ hfield)
  obtain ⟨output, houtput, heq⟩ := List.mem_map.1 hname
  exact List.mem_map.2 ⟨output, houtput, congrArg (Reference.mk label) heq⟩

/-! ## Clauses -/

theorem referencesAll_orderItems : ∀ (sqls : List Sql.Scalar) (keys : List SortTerm),
    Sql.OrderItem.referencesAll (List.zipWith (fun sql key => .mk sql key.direction) sqls keys) ⊆
      Sql.Scalar.referencesAll sqls
  | [], _ | _ :: _, [] => List.nil_subset _
  | sql :: sqls, _ :: keys => List.append_subset.2 ⟨List.subset_append_left ..,
      List.subset_append_of_subset_right sql.references (referencesAll_orderItems sqls keys)⟩

theorem referencesAll_outputs : ∀ (sqls : List Sql.Scalar) (names : List String),
    Sql.Output.referencesAll (List.zipWith .mk sqls names) ⊆ Sql.Scalar.referencesAll sqls
  | [], _ | _ :: _, [] => List.nil_subset _
  | sql :: sqls, _ :: names => List.append_subset.2 ⟨List.subset_append_left ..,
      List.subset_append_of_subset_right sql.references (referencesAll_outputs sqls names)⟩

theorem Scope.Flat.nil {P : Expr → Prop} : Scope.Flat P [] := List.forall_mem_nil _

section

variable {sub : SubqueryCompiler}

/-- A join reads what was on offer before and what it offers itself; its row reads the same. -/
theorem compileJoin_scoped {join : JoinTerm} (ht : join.table.columns ⊆ columnsOf join.table.name)
    (hj : join.Plain) {row : Row} (hr : row.Flat (Expr.Reads l fields)) :
    Grows l (fun l' r => Sql.Join.referencesAll [r.1] ⊆ fields ++ r.1.offers columnsOf ∧
      r.2.Flat (Expr.Reads l' (fields ++ r.1.offers columnsOf))) (compileJoin sub [] join row) := by
  refine withTable_grows join.table fun l₁ columns label hl₁ hcolumns => ?_
  let offers : List Reference := (columnsOf join.table.name).map (⟨label, ·⟩)
  have houter : row.Flat (Expr.Reads l₁ (fields ++ offers)) :=
    (hr.grow hl₁).widen (List.subset_append_left ..)
  have hinner : Row.Flat (Expr.Reads l₁ (fields ++ offers)) (.table join.table columns) :=
    .table fun e he => (hcolumns e he).widen
      (List.subset_append_of_subset_right _ (List.map_subset _ ht))
  refine (Grows.build (ExprTerm.eval_reads hj.outerKey
    (Scope.Flat.nil.cons (.clause houter)))).bind fun l₂ outerKey hl₂ ho => ?_
  refine (Expr.compile_reads ho).bind fun l₃ outerSql hl₃ hos => ?_
  have hl := hl₂.trans hl₃
  refine (Grows.build (ExprTerm.eval_reads hj.innerKey
    (Scope.Flat.nil.cons (.clause (hinner.grow hl))))).bind fun l₄ innerKey hl₄ hi => ?_
  refine (Expr.compile_reads hi).bind fun l₅ innerSql hl₅ his => ?_
  have hl' := hl.trans (hl₄.trans hl₅)
  refine (Grows.build (RowTerm.eval_reads hj.result (Scope.Flat.nil.cons
    (.joined (houter.grow hl') (hinner.grow hl'))))).bind fun _ _ _ hrow => .pure ⟨?_, hrow⟩
  exact List.append_subset.2 ⟨hos, List.append_subset.2 ⟨his, List.nil_subset _⟩⟩

/-- Joins read what was on offer before and what they offer themselves; so does the row. -/
def JoinsScoped (columnsOf : String → List String) (fields : List Reference) (l : Ledger)
    (r : List Sql.Join × Row) : Prop :=
  Sql.Join.referencesAll r.1 ⊆ fields ++ r.1.flatMap (Sql.Join.offers columnsOf) ∧
    r.2.Flat (Expr.Reads l (fields ++ r.1.flatMap (Sql.Join.offers columnsOf)))

theorem JoinsScoped.nil {row : Row} (hr : row.Flat (Expr.Reads l fields)) :
    JoinsScoped columnsOf fields l ([], row) :=
  ⟨List.nil_subset _, hr.widen (List.subset_append_left ..)⟩

theorem JoinsScoped.cons {join : Sql.Join} {joins : List Sql.Join} {row : Row}
    (hjoin : Sql.Join.referencesAll [join] ⊆ fields ++ join.offers columnsOf)
    (h : JoinsScoped columnsOf (fields ++ join.offers columnsOf) l (joins, row)) :
    JoinsScoped columnsOf fields l (join :: joins, row) := by
  unfold JoinsScoped
  rw [List.flatMap_cons, ← List.append_assoc, Sql.Join.referencesAll_cons]
  exact ⟨List.append_subset.2 ⟨List.subset_append_of_subset_left _ hjoin, h.1⟩, h.2⟩

theorem compileJoins_scoped : ∀ {joins : List JoinTerm} {l : Ledger} {fields : List Reference}
    {row : Row}, (∀ join ∈ joins, (ClauseRule.plain columnsOf).join join) →
      row.Flat (Expr.Reads l fields) →
        Grows l (JoinsScoped columnsOf fields) (compileJoins sub [] joins row)
  | [], _, _, _, _, hr => .pure (.nil hr)
  | join :: joins, l, fields, row, h, hr => by
      rw [List.forall_mem_cons] at h
      refine (compileJoin_scoped h.1.1 h.1.2 hr).bind fun l₁ first hl₁ hfirst => ?_
      refine (compileJoins_scoped h.2 hfirst.2).bind fun l₂ rest hl₂ hrest => ?_
      exact .pure (.cons hfirst.1 hrest)

theorem compileJoinClause_scoped {joins : Option (List JoinTerm)} {row : Row}
    (h : ∀ js ∈ joins, ∀ join ∈ js, (ClauseRule.plain columnsOf).join join)
    (hr : row.Flat (Expr.Reads l fields)) :
    Grows l (JoinsScoped columnsOf fields) (compileJoinClause sub [] joins row) := by
  match joins with
  | none => exact .pure (.nil hr)
  | some [] => exact .throw _
  | some (join :: joins) => exact compileJoins_scoped (h _ rfl) hr

theorem compileCondition_reads {predicate : Option ExprTerm} {row : Row}
    (h : ∀ t ∈ predicate, t.Plain) (hr : row.Flat (Expr.Reads l fields)) :
    Grows l (fun _ sql => Sql.Scalar.referencesOption sql ⊆ fields)
      (compileCondition sub [] predicate row) := by
  cases predicate with
  | none => exact .pure (List.nil_subset _)
  | some t =>
      refine (Grows.build (ExprTerm.eval_reads (h t rfl)
        (Scope.Flat.nil.cons (.clause hr)))).bind fun l₁ e hl₁ he => ?_
      exact (Expr.compile_reads he).bind fun _ _ _ hsql => .pure hsql

theorem compileOrder_reads {keys : List SortTerm} {row : Row} (h : ∀ key ∈ keys, key.key.Plain)
    (hr : row.Flat (Expr.Reads l fields)) :
    Grows l (fun _ items => Sql.OrderItem.referencesAll items ⊆ fields)
      (compileOrder sub [] keys row) := by
  refine (Grows.build (ExprTerm.evalAll_reads (List.forall_mem_map.2 h)
    (Scope.Flat.nil.cons (.clause hr)))).bind fun l₁ es hl₁ hes => ?_
  refine (Expr.compileAll_reads hes).bind fun _ sqls _ hsqls => .pure ?_
  exact List.Subset.trans (referencesAll_orderItems sqls keys) hsqls.1

theorem givenNames_grows (given : Option (List String)) (width : Nat) :
    Grows l (fun _ _ => True) (givenNames given width) := by
  cases given with
  | none => exact .pure trivial
  | some names =>
      show Grows l _ (if names.length = width then _ else _)
      split
      · exact .pure trivial
      · exact (Grows.report _).bind fun _ _ _ _ => .pure trivial

/-- What a projection reads, and how its fields go with the row and the output columns. -/
structure ProjectionScoped (fields : List Reference) (row : Row)
    (r : List Sql.Output × List Field) : Prop where
  references : Sql.Output.referencesAll r.1 ⊆ fields
  exprs_eq : r.2.map Field.expr = row.flatten
  names_eq : r.2.map Field.name = r.1.map Sql.Output.name

theorem compileProjection_scoped {given : Option (List String)} {row : Row}
    (hr : row.Flat (Expr.Reads l fields)) :
    Grows l (fun _ r => ProjectionScoped fields row r) (compileProjection sub given row) := by
  unfold compileProjection
  dsimp only
  split
  · exact .throw _
  · refine (Expr.compileAll_reads hr.flatten).bind fun l₁ sqls hl₁ hsqls => ?_
    refine Grows.bind (Q := fun _ _ => True) (givenNames_grows given _) fun l₂ given hl₂ _ => ?_
    refine Grows.withContext fun ctx _ => .pure ?_
    have hlength := length_outputNames ctx.referenceOf given row.flatten
    refine ⟨List.Subset.trans (referencesAll_outputs sqls _) hsqls.1, ?_, ?_⟩
    · exact Field.map_expr_zipWith hlength
    · refine (Field.map_name_zipWith hlength).trans (Sql.Output.map_name_zipWith ?_).symm
      exact hlength.trans hsqls.2.symm

/-! ## Blocks -/

theorem compileClauses_scoped {clauses : Clauses} (hc : clauses.Obeys (.plain columnsOf))
    {stages : List RowTerm} (hst : ∀ stage ∈ stages, stage.Plain) (aliases : Option (List String))
    {source : Sql.Source} {row : Row} (hsource : SourceScoped columnsOf l (source, row)) :
    Grows l (Compiled.Scoped columnsOf)
      (compileClauses sub [] clauses stages aliases source row) := by
  refine (compileJoinClause_scoped hc.joins hsource.row).bind fun l₁ joins hl₁ hj => ?_
  obtain ⟨joins, row⟩ := joins
  refine (compileCondition_reads hc.filter hj.2).bind fun l₂ filter hl₂ hfilter => ?_
  have hgrouping : compileGrouping sub [] clauses.grouping row = pure ([], none, row) := by
    rw [Option.eq_none_iff_forall_not_mem.2 fun g hg => hc.grouping g hg]
    rfl
  rw [hgrouping, pure_bind]
  have horder : ∀ key ∈ clauses.order.getD [], key.key.Plain := by
    cases ho : clauses.order with
    | none => simp
    | some keys => exact hc.order keys ho
  refine (compileOrder_reads horder (hj.2.grow hl₂)).bind fun l₃ order hl₃ ho => ?_
  refine (Grows.build (RowTerm.runStages_reads hst .nil ((hj.2.grow hl₂).grow hl₃))).bind
    fun l₄ row hl₄ hrow => ?_
  refine (compileProjection_scoped hrow).bind fun l₅ projection hl₅ hp => .pure ?_
  obtain ⟨outputs, fields⟩ := projection
  refine ⟨?_, hrow.mono fun e he => hl₅.given he.given, hp.exprs_eq, hp.names_eq⟩
  refine List.forall_mem_cons.2 ⟨?_, hsource.statements⟩
  exact List.append_subset.2 ⟨hp.references, List.append_subset.2 ⟨hj.1,
    List.append_subset.2 ⟨hfilter, ho⟩⟩⟩

mutual

theorem Block.compile_scoped : ∀ {block : Block} {l : Ledger}, block.Obeys (.plain columnsOf) →
    Leads l (Compiled.Scoped columnsOf) (block.compile sub [])
  | _, _, .mk hc hb hst _ => by
      refine Leads.withContext fun _ _ => Leads.bind (Grows.report _) fun l₁ _ _ => ?_
      refine (Base.compile_scoped hb).bind fun l₂ source hsource => ?_
      exact (compileClauses_scoped hc hst _ hsource).leads

theorem Base.compile_scoped : ∀ {base : Base} {l : Ledger}, base.Obeys (.plain columnsOf) →
    Leads l (SourceScoped columnsOf) (base.compile sub [])
  | _, _, .table ht => (compileTable_scoped ht).leads
  | _, _, .derived h => ((Block.compile_scoped h).indented 1).bind fun _ _ hinner =>
      compileDerived_scoped hinner
  | _, _, .strayHaving => .throw _

end

/-- A plain query is compiled to a statement that reads what it offers, and so do its derived
tables. -/
theorem Query.compile_scoped {q : Query} (h : q.Obeys (.plain columnsOf)) :
    Leads l (Compiled.Scoped columnsOf) (q.compile sub []) := by
  unfold Query.compile
  split
  · next block hb => exact Block.compile_scoped (h.block? hb)
  · exact .throw _

end

end QueryCompiler
