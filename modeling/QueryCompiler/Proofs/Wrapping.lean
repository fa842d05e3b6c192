import QueryCompiler.Proofs.Layout.StrayHaving
import QueryCompiler.Proofs.Lines.Compile
import QueryCompiler.Proofs.Scoping.Ledger
import QueryCompiler.Proofs.Scoping.References
import QueryCompiler.Proofs.Sealing.Replay
import QueryCompiler.Proofs.UniqueNames
import QueryCompiler.Proofs.Visits

/-! # `QueryCompiler.Proofs.Wrapping` — a query kept apart as a derived table

A query that is kept apart is compiled to its own statement, further in, under one that passes all
of its columns on:

    SELECT
        aK.Id AS Id,
        aK.Name AS Name
    FROM (
        the statement of the query
    ) aK

Four things come together.  The query is brought into normal form as it would be alone.  Its
statement does not depend on how far in it stands.  Each node that it projects is read from the
derived table from then on, if it projects no node twice.  And since the names of its outputs differ,
they are taken over as they are.
-/

namespace QueryCompiler

open CompileM
open Text (OneLine lower)

/-! ## The block of a query kept apart -/

namespace Query

theorem normalize_derived (q : Query) : (derived q).normalize = .select (.derived q.fused) [] none := by
  rw [normalize, fused_derived]
  rfl

/-- The block of a query kept apart has no clauses and reads from the block of the query. -/
theorem block?_normalize_derived (q : Query) :
    ∃ block, q.normalize.block? = some block ∧ (derived q).normalize.block? =
      some (.mk (.derived q.fused) {} (.derived block) [] none) := by
  rw [normalize_derived, block?]
  by_cases hselect : q.fused.head = .select
  · rw [layout_derived_of_select hselect .order .order, normalize, rooted_of_select hselect]
    obtain ⟨source, stages, aliases, hfused⟩ := eq_select_of_head hselect
    rw [hfused]
    exact ⟨_, rfl, rfl⟩
  · rw [layout_derived hselect, normalize]
    refine ⟨.mk q.fused (q.fused.layout .order).1 (q.fused.layout .order).2 [] none, ?_, rfl⟩
    cases hfused : q.fused with
    | select => exact absurd (by rw [hfused]; rfl) hselect
    | _ => rfl

end Query

/-! ## What a statement shows -/

/-- How the row and the output columns of a compiled statement go together. -/
structure Compiled.Presents (c : Compiled) : Prop where
  exprs_eq : c.fields.map (·.expr) = c.row.flatten
  names_eq : c.fields.map (·.name) = c.select.outputs.map (·.name)
  nonempty : c.row.flatten ≠ []
  nodup : ((c.fields.map (·.name)).map lower).Nodup

section

variable {sub : SubqueryCompiler} {scope : Scope} {μ ν : Moment}

theorem compileProjection_presents {given : Option (List String)} {row : Row}
    {r : List Sql.Output × List Field} (h : (compileProjection sub given row).Takes μ r ν) :
    r.2.map (·.expr) = row.flatten ∧ r.2.map (·.name) = r.1.map (·.name) ∧ row.flatten ≠ [] ∧
      ((r.2.map (·.name)).map lower).Nodup := by
  unfold compileProjection at h
  dsimp only at h
  split at h
  · exact (takes_throw.1 h).elim
  · next hnonempty =>
      simp only [takes_bind, takes_get, takes_pure] at h
      obtain ⟨ts, ξ, hts, names, ζ, -, _, _, ⟨rfl, rfl⟩, rfl, rfl⟩ := h
      have hlength := length_outputNames ζ.context.referenceOf names row.flatten
      have hname := Field.map_name_zipWith hlength
      refine ⟨Field.map_expr_zipWith hlength, hname.trans ?_, fun hnil => ?_, ?_⟩
      · exact (Sql.Output.map_name_zipWith
          (hlength.trans (Expr.writesAll _ hts).length_eq.symm)).symm
      · exact hnonempty (List.isEmpty_iff.2 hnil)
      · rw [hname]
        exact outputNames_nodup ζ.context.referenceOf names row.flatten

theorem Block.compile_presents {block : Block} {c : Compiled}
    (h : (block.compile sub scope).Takes μ c ν) : c.Presents := by
  cases block
  simp only [Block.compile, compileClauses, takes_bind, takes_pure] at h
  obtain ⟨_, _, -, _, _, -, _, _, -, _, _, -, _, _, -, _, _, -, _, _, -, _, _, -, _, _, hprojection,
    rfl, rfl⟩ := h
  obtain ⟨hexprs, hnames, hnonempty, hnodup⟩ := compileProjection_presents hprojection
  exact ⟨hexprs, hnames, hnonempty, hnodup⟩

/-! ## Reading from a derived table -/

theorem Field.firstUses_of_nodup : ∀ {seen : List NodeId} {fields : List Field},
    (fields.map (·.expr.id)).Nodup → (∀ f ∈ fields, f.expr.id ∉ seen) →
      Field.firstUses seen fields = fields
  | _, [], _, _ => rfl
  | seen, f :: fields, hnodup, hnew => by
      rw [List.map_cons, List.nodup_cons] at hnodup
      rw [List.forall_mem_cons] at hnew
      rw [Field.firstUses, if_neg hnew.1, Field.firstUses_of_nodup hnodup.2 fun g hg hmem => ?_]
      rcases List.mem_cons.1 hmem with heq | hmem
      · exact hnodup.1 (heq ▸ List.mem_map_of_mem hg)
      · exact hnew.2 g hg hmem

/-- Fields of different nodes are each read from where they are registered. -/
theorem Context.referenceOf_registerAll_of_nodup {fields : List Field}
    (hnodup : (fields.map (·.expr.id)).Nodup) (ctx : Context) (label : String) {f : Field}
    (hf : f ∈ fields) :
    (ctx.registerAll label (fields.map fun f => (f.expr.id, f.name))).referenceOf f.expr.id =
      some ⟨label, f.name⟩ := by
  rcases Context.referenceOf_registerAll label f.expr.id (fields.map fun f => (f.expr.id, f.name))
    ctx with ⟨p, hp, hid, hread⟩ | ⟨hnot, -⟩
  · obtain ⟨g, hg, rfl⟩ := List.mem_map.1 hp
    obtain rfl : g = f := List.inj_on_of_nodup_map hnodup hg hf hid
    exact hread
  · exact absurd (List.mem_map_of_mem (List.mem_map_of_mem hf)) hnot

theorem takes_compileAll_of_registered {label : String} : ∀ {fields : List Field},
    (∀ f ∈ fields, μ.referenceOf f.expr.id = some ⟨label, f.name⟩) →
      (Expr.compileAll sub (fields.map (·.expr))).Takes μ
        (fields.map fun f => .reference label f.name) μ
  | [], _ => takes_compileAll_nil.2 rfl
  | _ :: _, h => by
      rw [List.forall_mem_cons] at h
      exact takes_compileAll_cons.2
        ⟨μ, Writes.takes (.registered h.1), takes_compileAll_of_registered h.2⟩

/-- The statement that passes on the fields of a source. -/
def Sql.Select.passing (source : Sql.Source) (label : String) (names : List String) : Sql.Select :=
  .mk (names.map fun name => .mk (.reference label name) name) source [] none [] none []

/-- Without clauses of its own, a statement passes on the fields that its row is read from. -/
theorem takes_compileClauses_passing {source : Sql.Source} {label : String} {row : Row}
    {fields : List Field} (hrow : fields.map (·.expr) = row.flatten) (hnonempty : row.flatten ≠ [])
    (hread : ∀ f ∈ fields, μ.referenceOf f.expr.id = some ⟨label, f.name⟩)
    (hnodup : ((fields.map (·.name)).map lower).Nodup) :
    (compileClauses sub scope {} [] none source row).Takes μ
      ⟨.passing source label (fields.map (·.name)), row, fields⟩ μ := by
  have hprojection : (compileProjection sub none row).Takes μ
      (fields.map fun f => .mk (.reference label f.name) f.name, fields) μ := by
    have hnames : outputNames μ.context.referenceOf [] (fields.map (·.expr)) = fields.map (·.name) :=
      outputNames_of_registered hread hnodup
    unfold compileProjection
    dsimp only
    rw [if_neg fun hempty => hnonempty (List.isEmpty_iff.1 hempty), ← hrow]
    refine takes_bind.2 ⟨_, μ, takes_compileAll_of_registered hread, ?_⟩
    refine takes_bind.2 ⟨[], μ, takes_pure.2 ⟨rfl, rfl⟩, ?_⟩
    refine takes_bind.2 ⟨_, μ, takes_get.2 ⟨rfl, rfl⟩, takes_pure.2 ⟨?_, rfl⟩⟩
    rw [hnames, List.zipWith_map, List.zipWith_map, List.zipWith_self, List.zipWith_self, List.map_id']
  unfold compileClauses
  -- no clause does anything before the projection
  refine takes_bind.2 ⟨([], row), μ, takes_pure.2 ⟨rfl, rfl⟩, ?_⟩
  refine takes_bind.2 ⟨none, μ, takes_pure.2 ⟨rfl, rfl⟩, ?_⟩
  refine takes_bind.2 ⟨([], none, row), μ, takes_pure.2 ⟨rfl, rfl⟩, ?_⟩
  refine takes_bind.2 ⟨[], μ, rfl, ?_⟩
  refine takes_bind.2 ⟨row, μ, rfl, ?_⟩
  refine takes_bind.2 ⟨_, μ, hprojection, takes_pure.2 ⟨?_, rfl⟩⟩
  rw [Sql.Select.passing, List.map_map]
  rfl

end

/-! ## Further in -/

/-- Both runs share their nodes and their values. -/
def Matching.identical : Matching := .sharing Eq fun h => congrArg _ h

theorem params_eq_of_identical {d : Dialect} {ps ps' : List (String × Value)}
    (h : List.Forall₂ (ParamAlike .identical d d) ps ps') : ps = ps' := by
  induction h with
  | nil => rfl
  | cons hp _ ih =>
      obtain ⟨i, v, w, rfl : v = w, -, rfl, rfl⟩ := hp
      rw [ih]

theorem ids_eq_of_identical {fields fields' : List Field}
    (h : List.Forall₂ (Field.Alike .identical) fields fields') :
    fields.map (·.expr.id) = fields'.map (·.expr.id) := by
  induction h with
  | nil => rfl
  | cons hf _ ih =>
      have hid : _ = _ := hf.1.id
      rw [List.map_cons, List.map_cons, hid, ih]

/-- A query that is compiled from the empty context is compiled to the same statement at any other
level, and as many aliases are given out and the same values bound. -/
theorem Query.compileIn_at_level {q : Query} {d : Dialect} {scope : Scope} {s s' : Session}
    {c : Compiled} {ν : Moment} (h : (q.compileIn scope).Takes ⟨.empty d, s⟩ c ν)
    (hs : s'.supply = s.supply) (level : Nat) :
    ∃ c' ν', (q.compileIn scope).Takes ⟨{ Context.empty d with indent := level }, s'⟩ c' ν' ∧
      c'.select = c.select ∧ c'.fields.map (·.expr.id) = c.fields.map (·.expr.id) ∧
      ν'.context.nextAlias = ν.context.nextAlias ∧ ν'.context.params = ν.context.params := by
  have hscope : scope.Alike .identical scope :=
    Entry.AlikeAll.refl (fun _ => rfl) scope fun _ _ => rfl
  have hq : q.Alike Matching.identical.values q := Query.Alike.refl (fun _ => rfl) q
  have hctx : Context.Alike .identical d d (.empty d) { Context.empty d with indent := level } :=
    ⟨rfl, rfl, rfl, .nil, .nil⟩
  have hsupply : s.supply.Alike .identical s'.supply := by
    rw [hs]
    exact .refl_sharing _
  have hrun := hq.compileIn hscope _ _ s s' hctx hsupply
  rw [show outcome _ _ _ = _ from h] at hrun
  generalize ho : outcome (q.compileIn scope) { Context.empty d with indent := level } s' = o at hrun
  cases hrun with
  | @ok _ c' _ ctx' _ t' hc hctx _ =>
      refine ⟨c', ⟨ctx', t'⟩, ho, hc.select_eq.symm, (ids_eq_of_identical hc.fields).symm,
        hctx.nextAlias_eq.symm, (params_eq_of_identical hctx.params).symm⟩

/-! ## The text -/

namespace Sql

theorem commaLines_ne_nil (level : Nat) : ∀ {texts : List String}, texts ≠ [] →
    commaLines level texts ≠ []
  | [], h => absurd rfl h
  | [_], _ => List.cons_ne_nil _ _
  | _ :: _ :: _, _ => List.cons_ne_nil _ _

theorem intercalate_commaLines (level : Nat) : ∀ texts : List String,
    String.intercalate "\n" (commaLines level texts) =
      String.intercalate ",\n" (texts.map (pad level ++ ·))
  | [] => rfl
  | [text] => by rw [commaLines, List.map_singleton, String.intercalate_singleton,
      String.intercalate_singleton]
  | text :: next :: texts => by
      have ih := intercalate_commaLines level (next :: texts)
      rw [List.map_cons] at ih
      show String.intercalate "\n" ([pad level ++ text ++ ","] ++ commaLines level (next :: texts)) = _
      rw [String.intercalate_append_of_ne_nil (List.cons_ne_nil _ _)
        (commaLines_ne_nil level (List.cons_ne_nil _ _)), ih, String.intercalate_singleton, List.map_cons,
        List.map_cons, String.intercalate_cons_cons]
      simp only [String.append_assoc]
      rfl

theorem Output.renderAll_references (d : Dialect) (level : Nat) (label : String) :
    ∀ names : List String,
      Output.renderAll d level (names.map fun name => .mk (.reference label name) name) =
        names.map fun name => label ++ "." ++ name ++ " AS " ++ name
  | [] => rfl
  | name :: names => by
      rw [List.map_cons, Output.renderAll, renderAll_references d level label names, Scalar.render]
      rfl

theorem Select.render_passing {select : Select} {label : String} {names : List String}
    (hnames : names ≠ []) (d : Dialect) :
    (Select.passing (.derived select label) label names).render d 0 =
      "SELECT\n" ++ String.intercalate ",\n"
          (names.map fun name => "    " ++ label ++ "." ++ name ++ " AS " ++ name) ++
        "\nFROM (\n" ++ select.render d 1 ++ "\n) " ++ label := by
  have hpad : pad 1 = "    " := rfl
  have hlines := commaLines_ne_nil 1
    (mt (List.map_eq_nil_iff (f := fun name => label ++ "." ++ name ++ " AS " ++ name)).1 hnames)
  have hrender : (Select.passing (.derived select label) label names).render d 0 =
      String.intercalate "\n" (["SELECT"] ++ (commaLines 1
        (names.map fun name => label ++ "." ++ name ++ " AS " ++ name) ++
          ["FROM (", select.render d 1, ") " ++ label])) := by
    simp [Select.passing, Select.render, Output.renderAll_references, Source.render, Join.renderAll,
      clauseLines, Scalar.renderOption, Scalar.renderAll, OrderItem.renderAll, pad]
  rw [hrender, String.intercalate_append_of_ne_nil (List.cons_ne_nil _ _)
    (List.append_ne_nil_of_left_ne_nil hlines _),
    String.intercalate_append_of_ne_nil hlines (List.cons_ne_nil _ _), intercalate_commaLines,
    List.map_map, hpad, String.intercalate_singleton, String.intercalate_cons_cons,
    String.intercalate_cons_cons, String.intercalate_singleton]
  have hselect : "SELECT\n" = "SELECT" ++ "\n" := rfl
  have hopen : "\nFROM (\n" = "\n" ++ "FROM (" ++ "\n" := rfl
  have hclose : "\n) " = "\n" ++ ") " := rfl
  simp only [hselect, hopen, hclose, Function.comp_def, String.append_assoc]

end Sql

/-! ## Whole compilations -/

section

variable {d : Dialect} {scope : Scope} {session : Session} {q : Query}

theorem Query.CompilesTo.presents {compiled : Compiled} {last : Context}
    (h : q.CompilesTo d scope session compiled last) : compiled.Presents := by
  obtain ⟨μ, ν, -, hcompiled, -⟩ := Query.compilesTo_iff.1 h
  obtain ⟨block, hblock, -⟩ := q.block?_normalize_derived
  rw [Query.compileIn, Query.compile_of_block hblock] at hcompiled
  exact Block.compile_presents hcompiled

/-- A derived table under the next alias, once the statement in it has been compiled further in. -/
theorem takes_base_derived {sub : SubqueryCompiler} {block : Block} {μ ν : Moment} {c : Compiled}
    (h : (block.compile sub scope).Takes (μ.deeper 1) c ν)
    (honce : (c.fields.map (·.expr.id)).Nodup) :
    ∃ κ, ((Base.derived block).compile sub scope).Takes μ
        (.derived c.select (Context.aliasName ν.context.nextAlias), c.row) κ ∧
      κ.context.params = ν.context.params ∧ ∀ f ∈ c.fields, κ.referenceOf f.expr.id =
        some ⟨Context.aliasName ν.context.nextAlias, f.name⟩ := by
  have hfirst : Field.firstUses [] c.fields = c.fields :=
    Field.firstUses_of_nodup honce fun _ _ => List.not_mem_nil
  let back : Context := { ν.context with indent := μ.context.indent }
  let fields := c.fields.map fun f => (f.expr.id, f.name)
  refine ⟨⟨back.takeAlias.registerAll (Context.aliasName ν.context.nextAlias) fields, ν.session⟩, ?_, ?_,
    fun f hf => Context.referenceOf_registerAll_of_nodup honce back.takeAlias _ hf⟩
  · refine takes_bind.2 ⟨c, ⟨back, ν.session⟩, indented_eq_ok.2 ⟨ν.context, h, rfl⟩, ?_⟩
    refine takes_bind.2 ⟨_, ⟨back.takeAlias, ν.session⟩, takeAlias_eq_ok.2 ⟨rfl, rfl, rfl⟩, ?_⟩
    refine takes_bind.2 ⟨(), _, ?_, takes_pure.2 ⟨rfl, rfl⟩⟩
    rw [hfirst]
    exact registerAll_eq_ok.2 ⟨rfl, rfl⟩
  · show (back.takeAlias.registerAll _ fields).params = _
    rw [Context.registerAll_eq]
    rfl

/-- A block without clauses over a derived table passes on the columns of the statement in it. -/
theorem takes_passing_block {sub : SubqueryCompiler} {body : Query} {block : Block} {μ κ ν : Moment}
    {c : Compiled} (hreport :
      (CompileM.report (.select ("Select(" ++ body.shape ++ ")") μ.context.indent)).Takes μ () κ)
    (h : (block.compile sub scope).Takes (κ.deeper 1) c ν)
    (honce : (c.fields.map (·.expr.id)).Nodup) :
    ∃ ω, ((Block.mk body {} (.derived block) [] none).compile sub scope).Takes μ
        ⟨.passing (.derived c.select (Context.aliasName ν.context.nextAlias))
          (Context.aliasName ν.context.nextAlias) (c.fields.map (·.name)), c.row, c.fields⟩ ω ∧
      ω.context.params = ν.context.params := by
  have hshow := Block.compile_presents h
  obtain ⟨ω, hbase, hparams, hread⟩ := takes_base_derived h honce
  refine ⟨ω, takes_bind.2 ⟨_, μ, takes_get.2 ⟨rfl, rfl⟩, takes_bind.2 ⟨(), κ, hreport, ?_⟩⟩, hparams⟩
  exact takes_bind.2 ⟨_, ω, hbase,
    takes_compileClauses_passing hshow.exprs_eq hshow.nonempty hread hshow.nodup⟩

/-- A query kept apart is compiled to the statement that passes on the columns of the query's own,
under the alias that comes next. -/
theorem Query.CompilesTo.derived {compiled : Compiled} {last : Context}
    (h : q.CompilesTo d scope session compiled last)
    (honce : (compiled.fields.map (·.expr.id)).Nodup) :
    ∃ compiled' last', (Query.derived q).CompilesTo d scope session compiled' last' ∧
      compiled'.select = .passing (.derived compiled.select (Context.aliasName last.nextAlias))
        (Context.aliasName last.nextAlias) (compiled.select.outputs.map (·.name)) ∧
      last'.params = last.params := by
  obtain ⟨μ, ν, hμ, hcompiled, rfl⟩ := Query.compilesTo_iff.1 h
  obtain ⟨⟨_, s⟩, hμ₀, rfl : _ = Context.empty d, hsupply⟩ := exists_enter d q ⟨.empty d, session⟩
  obtain ⟨-, rfl⟩ := hμ.unique hμ₀
  obtain ⟨μ', hμ', hctx', hsupply'⟩ := exists_enter d (.derived q) ⟨.empty d, session⟩
  obtain ⟨block, hblock, hblock'⟩ := q.block?_normalize_derived
  obtain ⟨κ, hreport, hctx, hsupplyκ⟩ := exists_report
    (.select ("Select(" ++ (Query.derived q.fused).shape ++ ")") μ'.context.indent) μ'
  -- the query's own statement, one level further in
  have hlevel : κ.deeper 1 = ⟨{ Context.empty d with indent := 1 }, κ.session⟩ := by
    rw [Moment.deeper, hctx, hctx']
    rfl
  obtain ⟨inner, ξ, hinner, hselect, hids, hnext, hparams⟩ := Query.compileIn_at_level hcompiled
    (hsupplyκ.trans (hsupply'.trans hsupply.symm)) 1
  rw [Query.compileIn, Query.compile_of_block hblock, ← hlevel] at hinner
  have hshow := Block.compile_presents hinner
  obtain ⟨ω, hpassing, hparams'⟩ := takes_passing_block hreport hinner (hids ▸ honce)
  have hsubqueries : (Query.derived q).normalize.subqueries = q.normalize.subqueries := by
    rw [subqueries_normalize, subqueries_normalize, subqueries]
  rw [← hsubqueries, ← Query.compile_of_block hblock'] at hpassing
  refine ⟨_, ω.context, Query.compilesTo_iff.2 ⟨μ', ω, hμ', hpassing, rfl⟩, ?_,
    hparams'.trans hparams⟩
  rw [hselect, hnext, hshow.names_eq, hselect]

/-- Keeping a query apart is exact.  If no node is projected twice by the statement of a query that
is compiled, and no name in it breaks a line, the query kept apart is compiled, with the same values
bound and to a statement with the same output columns; its text is that of the query moved further
in by four blanks, as the derived table of a statement that passes these columns on.  The table goes
under the first alias that the query leaves. -/
theorem compileQuery_derived {c : CompiledQuery} {compiled : Compiled} {last : Context}
    (hc : (compileQuery d scope q session).1 = .ok c)
    (hrun : q.CompilesTo d scope session compiled last)
    (honce : (compiled.fields.map (·.expr.id)).Nodup)
    (hnames : ∀ name ∈ q.names ++ scope.names, OneLine name) :
    ∃ c' compiled' last', (compileQuery d scope (.derived q) session).1 = .ok c' ∧
      (Query.derived q).CompilesTo d scope session compiled' last' ∧
      c'.params = c.params ∧
      compiled'.select.outputs.map (·.name) = compiled.select.outputs.map (·.name) ∧
      c'.sql = "SELECT\n" ++
        String.intercalate ",\n" ((compiled.select.outputs.map (·.name)).map fun name =>
          "    a" ++ toString last.nextAlias ++ "." ++ name ++ " AS " ++ name) ++
        "\nFROM (\n" ++ String.intercalate "\n" ((Text.lines c.sql).map ("    " ++ ·)) ++
        "\n) a" ++ toString last.nextAlias := by
  obtain ⟨compiled₀, last₀, hrun₀, rfl⟩ := compileQuery_iff_compilesTo.1 hc
  obtain ⟨rfl, rfl⟩ := hrun₀.unique hrun
  obtain ⟨compiled', last', hrun', hselect, hparams⟩ := hrun.derived honce
  have hshow := hrun.presents
  have hoffered : compiled₀.select.outputs.map (·.name) ≠ [] := by
    rw [← hshow.names_eq, Ne, List.map_eq_nil_iff, ← List.map_eq_nil_iff (f := (·.expr)),
      hshow.exprs_eq]
    exact hshow.nonempty
  have honeLined : compiled₀.select.Spelled .oneLined :=
    hrun.spelled (compileWithin_spells trivial _) hnames
  have hindented : compiled₀.select.render d (0 + 1) =
      String.intercalate "\n" ((Text.lines (compiled₀.select.render d 0)).map ("    " ++ ·)) := by
    rw [Sql.Select.render_add 0 honeLined, Text.pad_append_indent]
    rfl
  refine ⟨_, compiled', last', compileQuery_iff_compilesTo.2 ⟨compiled', last', hrun', rfl⟩, hrun',
    hparams, ?_, ?_⟩
  · rw [hselect, Sql.Select.passing, Sql.Select.outputs, List.map_map]
    exact List.map_id' _
  · have hopened : "    a" = "    " ++ "a" := rfl
    have hclosed : "\n) a" = "\n) " ++ "a" := rfl
    simp only [hselect, Sql.Select.render_passing hoffered, hindented, Context.aliasName, hopened,
      hclosed, String.append_assoc]

/-- Users whose names are asked for, each with an order; what both tables have is told apart by the
table, and what then agrees by a number. -/
private def usersWithOrders : Query :=
  .filter
    (.join (.table ⟨"Users", ["Id", "Name"]⟩)
      [.mk .inner ⟨"Orders", ["Id", "UserId"]⟩ (.named .row "Id") (.named .row "UserId")
        (.tuple [.slot 0 .outer, .slot 0 .inner]) none])
    (.compare .eq (.named .row "Name") (.literal (.text "Ann")))

private theorem usersWithOrders_run :
    (outcome (usersWithOrders.enter .sqlite >>= Query.compileIn []) (.empty .sqlite) {}).1.toOption.map
      (fun r => (r.1.fields.map (·.expr.id), r.1.select.outputs.map (·.name), r.2.nextAlias)) =
        some ([0, 1, 2, 3], ["UserId", "Name", "OrderId", "UserId1"], 2) := by
  decide +kernel

/-- The columns keep the names that have been made up for them. -/
theorem compileQuery_derived_usersWithOrders :
    ∃ c c' compiled compiled' last last',
      (compileQuery .sqlite [] usersWithOrders {}).1 = .ok c ∧
      usersWithOrders.CompilesTo .sqlite [] {} compiled last ∧
      (compiled.fields.map (·.expr.id)).Nodup ∧
      (∀ name ∈ usersWithOrders.names ++ Scope.names [], OneLine name) ∧
      (compileQuery .sqlite [] (.derived usersWithOrders) {}).1 = .ok c' ∧
      (Query.derived usersWithOrders).CompilesTo .sqlite [] {} compiled' last' ∧
      c'.params = c.params ∧
      compiled'.select.outputs.map (·.name) = ["UserId", "Name", "OrderId", "UserId1"] ∧
      c'.sql =
        "SELECT\n    a2.UserId AS UserId,\n    a2.Name AS Name,\n    a2.OrderId AS OrderId,\n" ++
        "    a2.UserId1 AS UserId1\nFROM (\n" ++
        String.intercalate "\n" ((Text.lines c.sql).map ("    " ++ ·)) ++ "\n) a2" := by
  obtain ⟨⟨compiled, last⟩, hok, hview⟩ := Option.map_eq_some_iff.1 usersWithOrders_run
  obtain ⟨hids, hview⟩ := Prod.mk.inj hview
  obtain ⟨houtputs, hlast⟩ := Prod.mk.inj hview
  have hrun : usersWithOrders.CompilesTo .sqlite [] {} compiled last :=
    .of_fst (Except.eq_ok_of_toOption hok)
  have hc := compileQuery_iff_compilesTo.2 ⟨compiled, last, hrun, rfl⟩
  have honce : (compiled.fields.map (·.expr.id)).Nodup := by
    rw [hids]
    decide
  have hnames : ∀ name ∈ usersWithOrders.names ++ Scope.names [], OneLine name := by
    decide +kernel
  obtain ⟨c', compiled', last', hc', hrun', hparams, houtputs', hsql⟩ :=
    compileQuery_derived hc hrun honce hnames
  rw [houtputs] at houtputs' hsql
  have hcolumns : "SELECT\n" ++ String.intercalate ",\n" (["UserId", "Name", "OrderId", "UserId1"].map
      fun name => "    a" ++ toString 2 ++ "." ++ name ++ " AS " ++ name) ++ "\nFROM (\n" =
        "SELECT\n    a2.UserId AS UserId,\n    a2.Name AS Name,\n    a2.OrderId AS OrderId,\n" ++
        "    a2.UserId1 AS UserId1\nFROM (\n" := by
    decide +kernel
  have hlabel : ∀ text : String, text ++ "\n) a" ++ toString 2 = text ++ "\n) a2" := fun text =>
    String.append_assoc.trans (congrArg (text ++ ·) (by decide +kernel))
  rw [hlast, hcolumns, hlabel] at hsql
  exact ⟨_, c', compiled, compiled', last, last', hc, hrun, honce, hnames, hc', hrun', hparams,
    houtputs', hsql⟩

end

end QueryCompiler
