import QueryCompiler.Proofs.Grouping.Texts

/-! # `QueryCompiler.Proofs.Grouping.Keys` — grouping keys outside the grouping

A statement with a grouping may project its keys and order by them, and some databases want them
written as in the grouping.  They are compiled anew wherever they stand, so this holds of some keys
only.  For a key that is written as `t` in the grouping and as `t'` in the projection or the ordering:

    no literal, no subquery     t' = t
    literals, no subquery       t' is t with other placeholders, bound to the same values
    a subquery                  t' is never t

The texts of `t` and `t'` are the same just where these are, in the last line provided that the names
are words (see `QueryCompiler.Proofs.Grouping.Texts`).  The first two lines need that the nodes of the
key are read from the same fields in both places.  Only a subquery behind the grouping can register
them again (see `QueryCompiler.Proofs.Redirection`), so they do where the statement has none from its
grouping on.
-/

namespace QueryCompiler

open CompileM

/-! ## Registered again -/

/-- On the way from the first context to the second the node has been registered. -/
def Context.Reregisters (ctx ctx' : Context) (id : NodeId) : Prop :=
  ∃ new, ctx'.aliases = new ++ ctx.aliases ∧ id ∈ new.map (·.1)

namespace Context

variable {ctx ctx₁ ctx₂ : Context}

/-- A node that is not registered again is read from the same field all the time. -/
theorem referenceOf_eq_of_not_reregisters (h : ctx.Evolves ctx₁) (h' : ctx₁.Evolves ctx₂)
    {id : NodeId} (hid : ¬ ctx.Reregisters ctx₂ id) : ctx₁.referenceOf id = ctx.referenceOf id := by
  obtain ⟨new, hnew⟩ := h.exists_aliases_eq
  obtain ⟨new', hnew'⟩ := h'.exists_aliases_eq
  have hmem : id ∉ new.map (·.1) := by
    intro hmem
    refine hid ⟨new' ++ new, ?_, ?_⟩
    · rw [hnew', hnew, List.append_assoc]
    · rw [List.map_append]
      exact List.mem_append_right _ hmem
  have hnone : new.lookup id = none := by
    refine List.lookup_eq_none_iff.2 fun p hp => bne_iff_ne.2 ?_
    rintro rfl
    exact hmem (List.mem_map_of_mem hp)
  rw [referenceOf, hnew, List.lookup_append, hnone]
  rfl

theorem not_reregisters_of_aliases_eq (h : ctx₁.aliases = ctx.aliases) (id : NodeId) :
    ¬ ctx.Reregisters ctx₁ id := by
  rintro ⟨new, hnew, hmem⟩
  obtain rfl := List.self_eq_append_left.1 (h.symm.trans hnew)
  exact List.not_mem_nil hmem

end Context

/-! ## Two places -/

namespace Sql

/-- The second expression is the first one with its placeholders so many numbers further on, where
the same values are bound. -/
def Scalar.Renumbered (params : List (String × Value)) (t t' : Scalar) : Prop :=
  ∃ k, t' = t.shift k ∧ ∀ i ∈ t.bounds, ∃ v,
    params[i]?.map Prod.snd = some v ∧ params[i + k]?.map Prod.snd = some v

/-- The expressions of a statement from its grouping on. -/
def Select.fromGrouping (select : Select) : List Scalar :=
  select.keys ++ (select.having.toList ++ (select.order.map (·.key) ++
    select.outputs.map (·.value)))

end Sql

section

variable {sub : SubqueryCompiler} {scope : Scope} {block : Block} {d : Dialect} {μ ν κ ξ : Moment}

/-- The node is written as `t` as a key of the grouping, and as `t'` as a sort key or an output. -/
def SelectRun.WritesKey (run : SelectRun sub scope block μ) (e : Expr) (t t' : Sql.Scalar) : Prop :=
  (e, t) ∈ run.keys.nodes.zip run.compiled.select.keys ∧
    ((e, t') ∈ run.order.nodes.zip (run.compiled.select.order.map (·.key)) ∨
      (e, t') ∈ run.outputs.nodes.zip (run.compiled.select.outputs.map (·.value)))

/-- The two places of a key are two moments, one after the other. -/
theorem SelectRun.WritesKey.exists_moments (hsub : sub.Evolves) {run : SelectRun sub scope block μ}
    {e : Expr} {t t' : Sql.Scalar} (h : run.WritesKey e t t') :
    ∃ κ ξ κ' ξ', Writes sub e κ t ξ ∧ Writes sub e κ' t' ξ' ∧
      run.keys.start.context.Evolves κ.context ∧ ξ.context.Evolves κ'.context ∧
      ξ'.context.Evolves run.stop.context := by
  obtain ⟨hkey, hagain⟩ := h
  rw [run.keys_eq] at hkey
  rw [run.order_eq, run.outputs_eq] at hagain
  obtain ⟨κ, ξ, hw, hκ, hξ⟩ := run.keys.writes.exists_of_mem_zip hsub hkey
  have hhaving := hξ.trans (run.having.evolves hsub)
  rcases hagain with hagain | hagain
  · obtain ⟨κ', ξ', hw', hκ', hξ'⟩ := run.order.writes.exists_of_mem_zip hsub hagain
    refine ⟨κ, ξ, κ', ξ', hw, hw', hκ, hhaving.trans (run.order.evolves_start.trans hκ'), ?_⟩
    rw [run.stop_eq]
    exact hξ'.trans (run.outputs.evolves hsub)
  · obtain ⟨κ', ξ', hw', hκ', hξ'⟩ := run.outputs.writes.exists_of_mem_zip hsub hagain
    refine ⟨κ, ξ, κ', ξ', hw, hw', hκ, ?_, run.stop_eq ▸ hξ'⟩
    exact hhaving.trans ((run.order.evolves hsub).trans (run.outputs.evolves_start.trans hκ'))

theorem SelectRun.WritesKey.mem_scalars {run : SelectRun sub scope block μ} {e : Expr}
    {t t' : Sql.Scalar} (h : run.WritesKey e t t') :
    t ∈ run.compiled.select.scalars ∧ t' ∈ run.compiled.select.scalars := by
  simp only [Sql.Select.scalars, List.mem_append]
  constructor
  · exact .inr (.inr (.inl (List.of_mem_zip h.1).2))
  · rcases h.2 with h | h
    · exact .inr (.inr (.inr (.inr (.inl (List.of_mem_zip h).2))))
    · exact .inr (.inr (.inr (.inr (.inr (List.of_mem_zip h).2))))

/-- A value that has been bound stays where it is. -/
theorem Moment.values_eq_some {last : Context} (hμ : μ.context.Ordered d)
    (h : μ.context.Evolves last) {i : Nat} {v : Value} (hv : μ.values[i]? = some v) :
    last.params[i]?.map Prod.snd = some v := by
  obtain ⟨rest, hrest⟩ := (hμ.evolves h).2
  rw [Moment.values, List.getElem?_map] at hv
  obtain ⟨p, hp, rfl⟩ := Option.map_eq_some_iff.1 hv
  rw [← hrest, List.getElem?_append_left (List.getElem?_eq_some_iff.1 hp).1, hp]
  rfl

/-- Where its nodes are read from the same fields, a key without subqueries is renumbered. -/
theorem Writes.renumbered (hsub : sub.Evolves) {e : Expr} {t t' : Sql.Scalar} {κ' ξ' : Moment}
    {last : Context} (hw : Writes sub e κ t ξ) (hw' : Writes sub e κ' t' ξ')
    (hκ : κ.context.Ordered d) (hbetween : ξ.context.Evolves κ'.context)
    (hlast : ξ'.context.Evolves last) (hflat : t.selects = [])
    (hreads : ∀ id ∈ e.ids, κ'.referenceOf id = κ.referenceOf id) :
    t.Renumbered last.params t' := by
  have hlater := (hw.evolves hsub).trans hbetween
  obtain ⟨hκ', hprefix⟩ := hκ.evolves hlater
  have hξ := (hκ.evolves (hw.evolves hsub)).1
  have hξ' := (hκ'.evolves (hw'.evolves hsub)).1
  obtain ⟨ν', hw'', hν'⟩ := hw.again hflat (List.Subset.refl _)
    (.of_reads hκ hκ' hreads hprefix.length_le)
  obtain ⟨rfl, rfl⟩ := hw''.unique hw'
  refine ⟨κ'.count - κ.count, rfl, fun i hi => ?_⟩
  obtain ⟨hle, hlt⟩ := hw.bounds_mem hsub hκ hflat i hi
  obtain ⟨v, hv⟩ : ∃ v, ξ.values[i]? = some v :=
    ⟨_, List.getElem?_eq_getElem (ξ.length_values ▸ hlt)⟩
  refine ⟨v, Moment.values_eq_some hξ (hbetween.trans ((hw'.evolves hsub).trans hlast)) hv, ?_⟩
  exact Moment.values_eq_some hξ' hlast ((hν'.value_eq hle).trans hv)

/-- No number of a placeholder is given out twice. -/
theorem Writes.bounds_eq_nil (hsub : sub.Evolves) {e : Expr} {t : Sql.Scalar} {κ' ξ' : Moment}
    (hw : Writes sub e κ t ξ) (hw' : Writes sub e κ' t ξ') (hκ : κ.context.Ordered d)
    (hbetween : ξ.context.Evolves κ'.context) (hflat : t.selects = []) : t.bounds = [] := by
  obtain ⟨hξ, -⟩ := hκ.evolves (hw.evolves hsub)
  obtain ⟨hκ', hprefix⟩ := hξ.evolves hbetween
  have hle : ξ.count ≤ κ'.count := hprefix.length_le
  refine List.eq_nil_iff_forall_not_mem.2 fun i hi => ?_
  have hbefore := (hw.bounds_mem hsub hκ hflat i hi).2
  have hafter := (hw'.bounds_mem hsub hκ' hflat i hi).1
  omega

/-- No alias of a source is given out twice. -/
theorem Writes.selects_eq_nil (hsub : sub.Evolves) (hlabels : sub.Labels) {e : Expr}
    {t : Sql.Scalar} {κ' ξ' : Moment} (hw : Writes sub e κ t ξ) (hw' : Writes sub e κ' t ξ')
    (hbetween : ξ.context.Evolves κ'.context) : t.selects = [] := by
  refine List.eq_nil_iff_forall_not_mem.2 fun select hmem => ?_
  exact (hw.labels hsub hlabels select hmem).not_later hbetween
    (hw'.labels hsub hlabels select hmem)

theorem Batch.aliases_eq {build : Build (List Expr)} (b : Batch sub build μ)
    (h : ∀ t ∈ b.texts, t.selects = []) : b.stop.context.aliases = μ.context.aliases := by
  rw [b.writes.aliases_eq (Sql.Scalar.selectsAll_eq_nil h), (takes_build.1 b.built).2.1]

/-- Without subqueries from the grouping on, nothing is registered any more. -/
theorem SelectRun.aliases_eq (run : SelectRun sub scope block μ)
    (h : ∀ t ∈ run.compiled.select.fromGrouping, t.selects = []) :
    run.stop.context.aliases = run.keys.start.context.aliases := by
  unfold Sql.Select.fromGrouping at h
  rw [run.keys_eq, run.having_eq, run.order_eq, run.outputs_eq] at h
  simp only [List.forall_mem_append] at h
  obtain ⟨hkeys, hhaving, horder, houtputs⟩ := h
  rw [run.stop_eq, run.outputs.aliases_eq houtputs, run.order.aliases_eq horder,
    run.having.aliases_eq hhaving, run.keys.writes.aliases_eq (Sql.Scalar.selectsAll_eq_nil hkeys)]

end

/-! ## Grouping keys -/

/-- In every statement of a query that compiles, a grouping key without subqueries that is projected
or ordered by, and whose nodes are not registered again, is written as in the grouping but for the
numbers of its placeholders, which are bound to the same values; so it is written the same, and its
texts are the same, exactly if it has none.  A key with a subquery is never written the same, and its
texts differ if the names are words.  Nodes are registered again only if there are subqueries from the
grouping on. -/
theorem compile_groupingKeys {d : Dialect} {scope inner : Scope} {session : Session} {q : Query}
    {c : CompiledQuery} (h : (compileQuery d scope q session).1 = .ok c) {depth : Nat}
    {block : Block} {μ : Moment} (hv : q.Visits d scope session ⟨depth, .block inner block, μ⟩)
    (run : SelectRun (compileWithin depth) inner block μ) {e : Expr} {t t' : Sql.Scalar}
    (hkey : run.WritesKey e t t') :
    (t.selects = [] →
      (∀ id ∈ e.ids, ¬ run.keys.start.context.Reregisters run.stop.context id) →
        t.Renumbered c.params t' ∧ (t' = t ↔ t.bounds = []) ∧
          ∀ level, t'.render d level = t.render d level ↔ t.bounds = []) ∧
    (t.selects ≠ [] → t' ≠ t ∧ ((∀ name ∈ q.names ++ scope.names, Text.Word name) →
      ∀ level, t'.render d level ≠ t.render d level)) ∧
    ((∀ s ∈ run.compiled.select.fromGrouping, s.selects = []) →
      ∀ id, ¬ run.keys.start.context.Reregisters run.stop.context id) := by
  have hsub := compileWithin_evolves depth
  obtain ⟨ξ₀, last, ⟨compiled, hblock⟩, hstart, hlast, hc⟩ := compileQuery_visits h hv
  obtain ⟨-, rfl⟩ := hblock.unique run.takes
  obtain ⟨κ, ξ, κ', ξ', hw, hw', hκ, hbetween, hstop⟩ := hkey.exists_moments hsub
  have hordered : κ.context.Ordered d :=
    ((Context.Ordered.empty d).evolves (hstart.trans ((run.evolves_keys hsub).trans hκ))).1
  refine ⟨fun hflat hids => ?_, fun hselects => ⟨fun heq => ?_, fun hnames => ?_⟩, fun hflat id => ?_⟩
  · have hreads : ∀ id ∈ e.ids, κ'.referenceOf id = κ.referenceOf id := by
      intro id hid
      have hstop' := (hw'.evolves hsub).trans hstop
      have hlater := (hw.evolves hsub).trans hbetween
      exact (Context.referenceOf_eq_of_not_reregisters (hκ.trans hlater) hstop' (hids id hid)).trans
        (Context.referenceOf_eq_of_not_reregisters hκ (hlater.trans hstop') (hids id hid)).symm
    have hrenumbered := hw.renumbered hsub hw' hordered hbetween (hstop.trans hlast) hflat hreads
    have hiff : t' = t ↔ t.bounds = [] := by
      refine ⟨?_, fun hbounds => ?_⟩
      · rintro rfl
        exact hw.bounds_eq_nil hsub hw' hordered hbetween hflat
      · obtain ⟨k, rfl, -⟩ := hrenumbered
        exact Sql.Scalar.shift_eq_self k hbounds
    refine ⟨hc ▸ hrenumbered, hiff, fun level => ?_⟩
    obtain ⟨k, rfl, -⟩ := hrenumbered
    exact Sql.Scalar.render_shift_eq_iff.trans hiff
  · subst heq
    exact hselects (hw.selects_eq_nil hsub (compileWithin_labels depth) hw' hbetween)
  · obtain ⟨compiled, last, hcompiled, -⟩ := compileQuery_iff_compilesTo.1 h
    have hworded := hcompiled.worded hnames hv run
    obtain ⟨ht, ht'⟩ := hkey.mem_scalars
    exact hw.render_ne hw' hbetween (hworded.scalar ht) (hworded.scalar ht') hselects
  · exact Context.not_reregisters_of_aliases_eq (run.aliases_eq hflat) id

/-! ## Keys that are written differently -/

/-- Customers grouped by a key, ordered by it and reduced to it. -/
private def groupedBy (key : ExprTerm) : Query :=
  .select (.orderBy (.groupBy (.table ⟨"customers", ["Id", "Age"]⟩) [key] none)
    [⟨.ascending, .field .row 0⟩]) [.exprs [.field .row 0]] none

private def groupedBy.compiled (key : ExprTerm) : CompileM Compiled := do
  let normal ← (groupedBy key).enter .generic
  normal.compileIn []

/-- The key's node is the one that is ordered by and projected. -/
private theorem groupedBy.writesKey {key : ExprTerm} {c : CompiledQuery}
    (h : (compileQuery .generic [] (groupedBy key) {}).1 = .ok c) :
    ∃ depth block μ, ∃ run : SelectRun (compileWithin depth) [] block μ,
      (groupedBy key).Visits .generic [] {} ⟨depth, .block [] block, μ⟩ ∧
      (groupedBy.compiled key).Takes ⟨.empty .generic, {}⟩ run.compiled run.stop ∧
      ∃ e t t' t'', run.compiled.select.keys = [t] ∧
        run.compiled.select.order.map (·.key) = [t'] ∧
        run.compiled.select.outputs.map (·.value) = [t''] ∧
        run.WritesKey e t t' ∧ run.WritesKey e t t'' := by
  obtain ⟨block, μ, hμ, hblock, run, -⟩ := exists_root h
  have htakes : (groupedBy.compiled key).Takes ⟨.empty .generic, {}⟩ run.compiled run.stop := by
    refine takes_bind.2 ⟨_, μ, hμ, ?_⟩
    rw [Query.compileIn, Query.compile, hblock]
    exact run.takes
  refine ⟨_, block, μ, run, ⟨block, μ, hμ, hblock, .refl⟩, htakes, ?_⟩
  obtain rfl := Option.some.inj hblock
  obtain ⟨e, hkeys⟩ : ∃ e, run.keys.nodes = [e] := ⟨_, (takes_build.1 run.keys.built).1.symm⟩
  have horder : run.order.nodes = [e] := by
    have hfirst : ∀ {keys : List Expr} (row : Row) (s : Supply), keys = [e] →
        (ExprTerm.evalAllOn [.field .row 0] [] (.group (.tuple (keys.map .expr)) row) s).1 = [e] := by
      rintro _ row s rfl
      rfl
    exact (takes_build.1 run.order.built).1.symm.trans (hfirst _ _ hkeys)
  have houtputs : run.outputs.nodes = [e] := by
    have hfirst : ∀ {keys : List Expr} (row : Row) (s : Supply), keys = [e] →
        (RowTerm.nodesOn [] [.exprs [.field .row 0]] (.group (.tuple (keys.map .expr)) row) s).1 =
          [e] := by
      rintro _ row s rfl
      rfl
    exact (takes_build.1 run.outputs.built).1.symm.trans (hfirst _ _ hkeys)
  obtain ⟨t, ht⟩ := List.length_eq_one_iff.1 (run.keys.writes.length_eq.trans (by rw [hkeys]; rfl))
  obtain ⟨t', ht'⟩ := List.length_eq_one_iff.1
    (run.order.writes.length_eq.trans (by rw [horder]; rfl))
  obtain ⟨t'', ht''⟩ := List.length_eq_one_iff.1
    (run.outputs.writes.length_eq.trans (by rw [houtputs]; rfl))
  have hselect := run.keys_eq.trans ht
  have hselect' := run.order_eq.trans ht'
  have hselect'' := run.outputs_eq.trans ht''
  refine ⟨e, t, t', t'', hselect, hselect', hselect'', ?_, ?_⟩
  · refine ⟨?_, .inl ?_⟩
    · rw [hkeys, hselect]
      exact List.mem_singleton_self _
    · rw [horder, hselect']
      exact List.mem_singleton_self _
  · refine ⟨?_, .inr ?_⟩
    · rw [hkeys, hselect]
      exact List.mem_singleton_self _
    · rw [houtputs, hselect'']
      exact List.mem_singleton_self _

/-- What is seen of a key: its text, how many subqueries it has, and its placeholders. -/
private def keyView (t : Sql.Scalar) : String × Nat × List Nat :=
  (t.render .generic 0, t.selects.length, t.bounds)

/-- What is seen of the expressions of the statement from its grouping on. -/
private def groupedBy.views (key : ExprTerm) : Option (List (String × Nat × List Nat)) :=
  (outcome (groupedBy.compiled key) (.empty .generic) {}).1.toOption.map fun r =>
    r.1.select.fromGrouping.map keyView

/-- These are the three places of the key. -/
private theorem groupedBy.exists_views {key : ExprTerm} {v v' v'' : String × Nat × List Nat}
    (hok : (compileQuery .generic [] (groupedBy key) {}).1.toOption.isSome = true)
    (hviews : groupedBy.views key = some [v, v', v'']) :
    ∃ c depth block μ, ∃ run : SelectRun (compileWithin depth) [] block μ,
      (compileQuery .generic [] (groupedBy key) {}).1 = .ok c ∧
      (groupedBy key).Visits .generic [] {} ⟨depth, .block [] block, μ⟩ ∧
      ∃ e t t' t'', run.WritesKey e t t' ∧ run.WritesKey e t t'' ∧
        run.compiled.select.fromGrouping = [t, t', t''] ∧
        keyView t = v ∧ keyView t' = v' ∧ keyView t'' = v'' := by
  obtain ⟨c, hc⟩ := Option.isSome_iff_exists.1 hok
  have hc := Except.eq_ok_of_toOption hc
  obtain ⟨depth, block, μ, run, hv, htakes, e, t, t', t'', ht, ht', ht'', hkey, hkey'⟩ :=
    groupedBy.writesKey hc
  refine ⟨c, depth, block, μ, run, hc, hv, e, t, t', t'', hkey, hkey', ?_⟩
  rw [groupedBy.views,
    show outcome (groupedBy.compiled key) (.empty .generic) {} = _ from htakes] at hviews
  have hfrom : run.compiled.select.fromGrouping.map keyView = [v, v', v''] :=
    Option.some.inj hviews
  rw [Sql.Select.fromGrouping, ht, ht', ht''] at hfrom ⊢
  cases hhaving : run.compiled.select.having with
  | none =>
      rw [hhaving] at hfrom
      simp only [Option.toList, List.nil_append, List.cons_append, List.map_cons, List.map_nil,
        List.cons.injEq, and_true] at hfrom
      exact ⟨rfl, hfrom⟩
  | some having =>
      rw [hhaving] at hfrom
      simp at hfrom

/-- The age at the next birthday: a key with a literal. -/
private def nextAge : ExprTerm := .binary .add (.named .row "Age") (.literal (.int 1))

/-- Whether the customer has orders: a key with a subquery. -/
private def hasOrders : ExprTerm :=
  .inQuery (.named .row "Id")
    (.select (.table ⟨"orders", ["CustomerId"]⟩) [.exprs [.named .row "CustomerId"]] none)

/-- The text of that key, for an alias of the table of orders. -/
private def hasOrdersText (label : String) : String :=
  "a0.Id IN (\n        SELECT\n            " ++ label ++ ".CustomerId AS CustomerId\n        FROM\n" ++
    "            orders " ++ label ++ "\n    )"

/-- Somewhere in the compilation a grouping key has the one text in the grouping, and the other one
in the projection or the ordering. -/
private def KeyTexts (q : Query) (text text' : String) : Prop :=
  ∃ c depth block μ, ∃ run : SelectRun (compileWithin depth) [] block μ,
    (compileQuery .generic [] q {}).1 = .ok c ∧
    q.Visits .generic [] {} ⟨depth, .block [] block, μ⟩ ∧
    ∃ e t t', run.WritesKey e t t' ∧ t.render .generic 0 = text ∧ t'.render .generic 0 = text'

private theorem groupedBy.keyTexts {key : ExprTerm} {v v' v'' : String × Nat × List Nat}
    (hok : (compileQuery .generic [] (groupedBy key) {}).1.toOption.isSome = true)
    (hviews : groupedBy.views key = some [v, v', v'']) :
    KeyTexts (groupedBy key) v.1 v'.1 ∧ KeyTexts (groupedBy key) v.1 v''.1 := by
  obtain ⟨c, depth, block, μ, run, hc, hv, e, t, t', t'', hkey, hkey', -, rfl, rfl, rfl⟩ :=
    groupedBy.exists_views hok hviews
  exact ⟨⟨c, depth, block, μ, run, hc, hv, e, t, t', hkey, rfl, rfl⟩,
    ⟨c, depth, block, μ, run, hc, hv, e, t, t'', hkey', rfl, rfl⟩⟩

private theorem views_nextAge : groupedBy.views nextAge =
    some [("a0.Age + @p0", 0, [0]), ("a0.Age + @p1", 0, [1]), ("a0.Age + @p2", 0, [2])] := by
  decide +kernel

private theorem views_hasOrders : groupedBy.views hasOrders =
    some [(hasOrdersText "a1", 1, []), (hasOrdersText "a2", 1, []), (hasOrdersText "a3", 1, [])] := by
  decide +kernel

/-- The literal of a key is bound anew in each place, and the subquery of a key reads from a source
with a new alias. -/
theorem compile_groupingKeys_ne :
    (KeyTexts (groupedBy nextAge) "a0.Age + @p0" "a0.Age + @p1" ∧
      KeyTexts (groupedBy nextAge) "a0.Age + @p0" "a0.Age + @p2") ∧
    (KeyTexts (groupedBy hasOrders) (hasOrdersText "a1") (hasOrdersText "a2") ∧
      KeyTexts (groupedBy hasOrders) (hasOrdersText "a1") (hasOrdersText "a3")) :=
  ⟨groupedBy.keyTexts (by decide +kernel) views_nextAge,
    groupedBy.keyTexts (by decide +kernel) views_hasOrders⟩

/-- The next age is projected with another placeholder than it is grouped by, bound to the same value;
and whether there are orders is projected with another alias. -/
theorem compile_groupingKeys_customers :
    (∃ c depth block μ, ∃ run : SelectRun (compileWithin depth) [] block μ,
      (compileQuery .generic [] (groupedBy nextAge) {}).1 = .ok c ∧
      (groupedBy nextAge).Visits .generic [] {} ⟨depth, .block [] block, μ⟩ ∧
      ∃ e t t', run.WritesKey e t t' ∧ t.selects = [] ∧
        (∀ id ∈ e.ids, ¬ run.keys.start.context.Reregisters run.stop.context id) ∧
        t.Renumbered c.params t' ∧ t' ≠ t ∧
        ∀ level, t'.render .generic level ≠ t.render .generic level) ∧
    (∃ c depth block μ, ∃ run : SelectRun (compileWithin depth) [] block μ,
      (compileQuery .generic [] (groupedBy hasOrders) {}).1 = .ok c ∧
      (groupedBy hasOrders).Visits .generic [] {} ⟨depth, .block [] block, μ⟩ ∧
      (∀ name ∈ (groupedBy hasOrders).names ++ Scope.names [], Text.Word name) ∧
      ∃ e t t', run.WritesKey e t t' ∧ t.selects ≠ [] ∧
        ∀ level, t'.render .generic level ≠ t.render .generic level) := by
  constructor
  · obtain ⟨c, depth, block, μ, run, hc, hv, e, t, t', t'', -, hkey, hfrom, hview, hview', hview''⟩ :=
      groupedBy.exists_views (by decide +kernel) views_nextAge
    have hflat : ∀ {t : Sql.Scalar} {text : String} {is : List Nat}, keyView t = (text, 0, is) →
        t.selects = [] := fun h => List.length_eq_zero_iff.1 (congrArg (·.2.1) h)
    have hbounds : t.bounds ≠ [] := by
      rw [show t.bounds = [0] from congrArg (·.2.2) hview]
      exact List.cons_ne_nil _ _
    obtain ⟨hrenumbered, -, hreads⟩ := compile_groupingKeys hc hv run hkey
    have hreads := hreads (by
      rw [hfrom]
      simp only [List.forall_mem_cons]
      exact ⟨hflat hview, hflat hview', hflat hview'', List.forall_mem_nil _⟩)
    obtain ⟨hagain, hiff, htexts⟩ := hrenumbered (hflat hview) fun id _ => hreads id
    exact ⟨c, depth, block, μ, run, hc, hv, e, t, t'', hkey, hflat hview, fun id _ => hreads id,
      hagain, fun heq => hbounds (hiff.1 heq), fun level heq => hbounds ((htexts level).1 heq)⟩
  · obtain ⟨c, depth, block, μ, run, hc, hv, e, t, t', t'', -, hkey, -, hview, -, -⟩ :=
      groupedBy.exists_views (by decide +kernel) views_hasOrders
    have hselects : t.selects ≠ [] := by
      rintro hnil
      have hlength : t.selects.length = 1 := congrArg (·.2.1) hview
      rw [hnil] at hlength
      exact absurd hlength (by decide)
    have hnames : ∀ name ∈ (groupedBy hasOrders).names ++ Scope.names [], Text.Word name := by
      decide +kernel
    obtain ⟨-, hsubquery, -⟩ := compile_groupingKeys hc hv run hkey
    exact ⟨c, depth, block, μ, run, hc, hv, hnames, e, t, t'', hkey, hselects,
      (hsubquery hselects).2 hnames⟩

end QueryCompiler
