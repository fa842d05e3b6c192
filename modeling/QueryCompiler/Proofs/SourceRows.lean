import QueryCompiler.Proofs.Isolation.Tables
import QueryCompiler.Proofs.Naming

/-! # `QueryCompiler.Proofs.SourceRows` — the row of a source is read from that source

All clauses of a statement are written over the row of what it reads from, so whatever they pass on
from this row has to be found there.

    source            its row                       an expression of the row is read as
    ---------------------------------------------------------------------------------------------
    a table           new nodes, one a column       the alias, and the column's own name
    a derived table   that of the inner statement   the alias, and the first field with this node

The alias is the one that was given out last, behind all of an inner statement's own.

Nothing is asked of the row of an inner statement.  It may hold literals, aggregates and keys of
groups, nodes from an enclosing scope, and the same node in several places; its nodes may have been
registered already, as those of the table inside or somewhere else altogether.  A node that stands in
several places is registered once, for the first of them, so that no field takes the place of an
earlier one.  The columns of a table are different nodes because no identity is handed out twice,
which is the one thing that is asked of the supply.
-/

namespace QueryCompiler

open CompileM

/-! ## First fields -/

/-- A field that is kept is the first one that shows its node. -/
theorem Field.find?_of_mem_firstUses : ∀ {seen : List NodeId} {fields : List Field} {f : Field}
    {e : Expr}, f ∈ Field.firstUses seen fields → f.expr.id = e.id →
      f.expr.id ∉ seen ∧ fields.find? (·.expr.same e) = some f := by
  intro seen fields
  induction fields generalizing seen with
  | nil => exact fun hf _ => absurd hf List.not_mem_nil
  | cons g fields ih =>
      intro f e hf hid
      rw [Field.firstUses] at hf
      split at hf
      · next hseen =>
          obtain ⟨hnew, hfirst⟩ := ih hf hid
          have hne : g.expr.id ≠ e.id := fun heq => hnew (hid.trans heq.symm ▸ hseen)
          exact ⟨hnew, by rw [List.find?_cons_of_neg (by simpa [Expr.same] using hne), hfirst]⟩
      · next hunseen =>
          rcases List.mem_cons.1 hf with rfl | hf
          · exact ⟨hunseen, List.find?_cons_of_pos (by simpa [Expr.same] using hid)⟩
          · obtain ⟨hnew, hfirst⟩ := ih hf hid
            rw [List.mem_cons, not_or] at hnew
            have hne : g.expr.id ≠ e.id := fun heq => hnew.1 (hid.trans heq.symm)
            exact ⟨hnew.2, by rw [List.find?_cons_of_neg (by simpa [Expr.same] using hne), hfirst]⟩

/-- Once the first uses are registered, each node among the fields is read from its first field. -/
theorem Context.referenceOf_registerAll_firstUses (ctx : Context) (label : String)
    {fields : List Field} {e : Expr} (he : e ∈ fields.map Field.expr) :
    ∃ f, fields.find? (·.expr.same e) = some f ∧
      (ctx.registerAll label
        ((Field.firstUses [] fields).map fun f => (f.expr.id, f.name))).referenceOf e.id =
          some ⟨label, f.name⟩ := by
  obtain ⟨f, hf, rfl⟩ := List.mem_map.1 he
  obtain ⟨first, hfirst, hid⟩ := (Field.exists_firstUses [] hf).resolve_left List.not_mem_nil
  rcases Context.referenceOf_registerAll label f.expr.id
    ((Field.firstUses [] fields).map fun f => (f.expr.id, f.name)) ctx with
    ⟨p, hp, hpid, hread⟩ | ⟨hnot, -⟩
  · obtain ⟨g, hg, rfl⟩ := List.mem_map.1 hp
    exact ⟨g, (Field.find?_of_mem_firstUses hg hpid).2, hread⟩
  · refine absurd ?_ hnot
    rw [← hid]
    exact List.mem_map_of_mem (List.mem_map_of_mem hfirst)

/-! ## Output columns -/

section

variable {sub : SubqueryCompiler} {scope : Scope} {μ ν : Moment}

/-- What a statement projects is the expressions of its row, under the names of its columns. -/
theorem Block.compile_fields {block : Block} {compiled : Compiled}
    (h : (block.compile sub scope).Takes μ compiled ν) :
    compiled.fields.map Field.expr = compiled.row.flatten ∧
      compiled.fields.map Field.name = compiled.select.outputs.map Sql.Output.name := by
  constructor
  · obtain ⟨run, rfl, -⟩ := exists_statementRun h
    exact run.fields_eq.trans run.nodes_eq
  · obtain ⟨body, clauses, base, stages, aliases⟩ := block
    simp only [Block.compile, compileClauses, takes_bind, takes_pure] at h
    obtain ⟨_, _, -, _, _, -, _, _, -, _, _, -, _, _, -, _, _, -, _, _, -, _, _, -, _, _,
      hprojection, rfl, -⟩ := h
    obtain ⟨names, _, -, houtputs, hfields⟩ := compileProjection_names hprojection
    exact hfields.trans houtputs.symm

end

/-- The columns of a table are column nodes of its name and theirs. -/
theorem Table.columnNodes_zip (table : String) : ∀ names : List String,
    Build.Returns (fun es => es.length = names.length ∧
      ∀ p ∈ es.zip names, p.1 = .column p.1.id table p.2) (Table.columnNodes table names)
  | [] => .pure ⟨rfl, List.forall_mem_nil _⟩
  | name :: names => by
      refine Build.Returns.bind (P := fun e => e = .column e.id table name) (.node fun _ => rfl)
        fun e he => ?_
      refine (columnNodes_zip table names).bind fun es hes => .pure ⟨congrArg (· + 1) hes.1, ?_⟩
      exact List.forall_mem_cons.2 ⟨he, hes.2⟩

/-! ## Sources -/

/-- Every expression of the row is read from the source under its alias: a column of a table by its own
name, and what an inner statement projects by the name of the first field that shows the node. -/
inductive Base.Offers (sub : SubqueryCompiler) (scope : Scope) (μ ν : Moment) :
    Base → Sql.Source → Row → Prop
  | table {t label columns} :
      (∀ e ∈ (Row.table t columns).flatten, ∃ name ∈ t.columns,
        e = .column e.id t.name name ∧ ν.referenceOf e.id = some ⟨label, name⟩) →
      Offers sub scope μ ν (.table t) (.table t.name label) (.table t columns)
  | derived {block label inner κ} : (block.compile sub scope).Takes (μ.deeper 1) inner κ →
      inner.fields.map Field.name = inner.select.outputs.map Sql.Output.name →
      (∀ e ∈ inner.row.flatten, ∃ f, inner.fields.find? (·.expr.same e) = some f ∧
        ν.referenceOf e.id = some ⟨label, f.name⟩) →
      Offers sub scope μ ν (.derived block) (.derived inner.select label) inner.row

section

variable {sub : SubqueryCompiler} {scope : Scope} {μ ν : Moment}

theorem compileTable_offers {t : Table} {r : Sql.Source × Row}
    (hinj : Function.Injective μ.session.supply.ids) (h : (compileTable t).Takes μ r ν) :
    Base.Offers sub scope μ ν (.table t) r.1 r.2 := by
  obtain ⟨columns, label, rfl⟩ : ∃ columns label,
      r = (.table t.name label, .table t columns) := by
    simp only [compileTable, takes_bind, takes_pure] at h
    obtain ⟨columns, -, -, label, -, -, -, -, -, rfl, -⟩ := h
    exact ⟨columns, label, rfl⟩
  have hopened : TableUse.Opened ⟨t, μ, label, columns, ν⟩ := h
  obtain ⟨hlength, hzip⟩ := Table.columnNodes_zip t.name t.columns μ.session.supply
  rw [← Table.instantiate, ← hopened.made.columns_eq] at hlength hzip
  refine .table fun e he => ?_
  -- the column stands beside its name
  have hfst : e ∈ (columns.zip t.columns).map Prod.fst := by
    rw [List.map_fst_zip (Nat.le_of_eq hlength)]
    exact he
  obtain ⟨p, hp, rfl⟩ := List.mem_map.1 hfst
  exact ⟨p.2, (List.of_mem_zip hp).2, hzip p hp, hopened.made.named hinj hp⟩

theorem Base.compile_offers {base : Base} {source : Sql.Source} {row : Row}
    (hinj : Function.Injective μ.session.supply.ids)
    (h : (base.compile sub scope).Takes μ (source, row) ν) :
    base.Offers sub scope μ ν source row := by
  cases base with
  | table t => exact compileTable_offers hinj h
  | derived block =>
      simp only [Base.compile, compileDerived, takes_bind, takes_pure, Prod.mk.injEq] at h
      obtain ⟨inner, κ, hinner, label, ξ, -, _, _, hregister, ⟨rfl, rfl⟩, rfl⟩ := h
      obtain ⟨ζ, hblock, -⟩ := hinner.indented
      obtain ⟨hexprs, hnames⟩ := Block.compile_fields hblock
      obtain ⟨hctx, -⟩ := registerAll_eq_ok.1 hregister
      refine .derived hblock hnames fun e he => ?_
      rw [Moment.referenceOf, ← hctx]
      exact Context.referenceOf_registerAll_firstUses ξ.context label (hexprs ▸ he)
  | strayHaving query => exact (takes_throw.1 h).elim

/-- The alias of a source is the last that has been given out when the source has been compiled. -/
theorem Base.compile_labelLast (hsub : sub.Evolves) {base : Base} {source : Sql.Source} {row : Row}
    (h : (base.compile sub scope).Takes μ (source, row) ν) :
    ∃ n, μ.context.nextAlias ≤ n ∧ ν.context.nextAlias = n + 1 ∧
      source.label = Context.aliasName n := by
  cases base with
  | table t =>
      obtain ⟨hsource, hcounter⟩ := compileTable_counter h
      obtain rfl : source = _ := hsource
      exact ⟨_, Nat.le_refl _, hcounter, rfl⟩
  | derived block =>
      obtain ⟨inner, κ, hinner, hderived⟩ := takes_bind.1 h
      obtain ⟨hsource, hcounter⟩ := compileDerived_counter hderived
      obtain rfl : source = _ := hsource
      have hκ := ((Block.compile_evolves scope hsub block).indented 1).takes hinner
      exact ⟨_, hκ.nextAlias_le, hcounter, rfl⟩
  | strayHaving query => exact (takes_throw.1 h).elim

end

/-- The row of what a statement reads from is read from there: the alias of the source is the one that
was given out last, and under it every expression of the row is registered with an output column of the
source. -/
theorem Base.compile_readsOwnSource (depth : Nat) (scope : Scope) (base : Base) {ctx ctx' : Context}
    {s s' : Session} {source : Sql.Source} {row : Row} (hinj : Function.Injective s.supply.ids)
    (h : outcome (base.compile (compileWithin depth) scope) ctx s =
      (.ok ((source, row), ctx'), s')) :
    (∃ n, ctx.nextAlias ≤ n ∧ ctx'.nextAlias = n + 1 ∧ source.label = Context.aliasName n) ∧
      base.Offers (compileWithin depth) scope ⟨ctx, s⟩ ⟨ctx', s'⟩ source row := by
  have htakes : (base.compile (compileWithin depth) scope).Takes ⟨ctx, s⟩ (source, row) ⟨ctx', s'⟩ := h
  exact ⟨Base.compile_labelLast (compileWithin_evolves depth) htakes, Base.compile_offers hinj htakes⟩

/-- The key of an order that an enclosing statement reads. -/
private def orderKey : Expr := .column 0 "orders" "Id"

private def withinOrders : Scope := [.named "o" (.table ⟨"orders", ["Id"]⟩ [orderKey])]

/-- Names of customers, twice, with a literal and the key of the order. -/
private def namesTwice : Base :=
  .derived (.mk (.table ⟨"customers", ["Name"]⟩) {} (.table ⟨"customers", ["Name"]⟩)
    [.exprs [.named .row "Name", .named .row "Name", .literal (.int 1), .named (.get "o") "Id"]] none)

/-- A context in which the order is read, with identities from one on. -/
private def besideOrders : Moment :=
  ⟨((Context.empty .generic).register 0 ⟨"a0", "Id"⟩).takeAlias, { supply := .counting 1 }⟩

/-- The name is read from the first of its two columns; the literal and the key of the order, which was
read elsewhere before, are read from the derived table too. -/
theorem Base.compile_readsOwnSource_namesTwice :
    Function.Injective besideOrders.session.supply.ids ∧
    ∃ source row ctx' s',
      outcome (namesTwice.compile (compileWithin 0) withinOrders) besideOrders.context
        besideOrders.session = (.ok ((source, row), ctx'), s') ∧
      (∃ n, besideOrders.context.nextAlias ≤ n ∧ ctx'.nextAlias = n + 1 ∧
        source.label = Context.aliasName n) ∧
      namesTwice.Offers (compileWithin 0) withinOrders besideOrders ⟨ctx', s'⟩ source row ∧
      (row.flatten.map fun e => ctx'.referenceOf e.id) =
        [some ⟨"a2", "CustomerName"⟩, some ⟨"a2", "CustomerName"⟩, some ⟨"a2", "Proj2"⟩,
          some ⟨"a2", "Id"⟩] := by
  have hinj : Function.Injective besideOrders.session.supply.ids := fun _ _ h => Nat.add_left_cancel h
  have hreads : ((outcome (namesTwice.compile (compileWithin 0) withinOrders) besideOrders.context
      besideOrders.session).1.toOption.map fun r => r.1.2.flatten.map fun e => r.2.referenceOf e.id) =
        some [some ⟨"a2", "CustomerName"⟩, some ⟨"a2", "CustomerName"⟩, some ⟨"a2", "Proj2"⟩,
          some ⟨"a2", "Id"⟩] := by decide +kernel
  refine ⟨hinj, ?_⟩
  rcases hrun : outcome (namesTwice.compile (compileWithin 0) withinOrders) besideOrders.context
      besideOrders.session with ⟨_ | ⟨⟨source, row⟩, ctx'⟩, s'⟩
  · rw [hrun] at hreads
    cases hreads
  · rw [hrun] at hreads
    obtain ⟨hlabel, hoffers⟩ := Base.compile_readsOwnSource 0 withinOrders namesTwice hinj hrun
    exact ⟨source, row, ctx', s', rfl, hlabel, hoffers, Option.some.inj hreads⟩

end QueryCompiler
