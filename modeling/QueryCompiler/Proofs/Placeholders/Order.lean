import QueryCompiler.Proofs.Courses
import QueryCompiler.Proofs.Grounding
import QueryCompiler.Proofs.Grouping.Renumbering
import QueryCompiler.Proofs.Placeholders.Correspondence

/-! # `QueryCompiler.Proofs.Placeholders.Order` — values are bound in the order of reading

Placeholders and bound values correspond, but in a whole query not in order: the outputs are written
first and compiled last.  In an expression without subqueries, and in a statement that changes rows,
nothing is compiled out of turn.

    e         (x || 'a')  IN  (NULL, CASE WHEN y = NULL THEN 2 ELSE z END, 3)
    literals        'a'                                      2              3
    text      (x || :p4)  IN  (NULL, CASE WHEN y IS NULL THEN :p5 ELSE z END, :p6)

Whoever hands over the values by their places and not by their names relies on it.  Literals are those
that are read from left to right, null left out; a node that is registered is read from elsewhere, and
what stands below it is not written.
-/

namespace QueryCompiler

open CompileM
open Sql (placeholder placeholdersIn)

/-! ## Literals in the order of reading -/

section

variable (registered : NodeId → Bool)

mutual

/-- The values of the literals of an expression other than null, from left to right, leaving out all
that stands at or below a registered node.  Of a subquery only the needle counts. -/
def Expr.shownLiterals : Expr → List Value
  | .literal id value => if registered id || value.isNull then [] else [value]
  | .null _ | .column .. | .parameter .. | .countStar _ | .unknown .. => []
  | .unary id _ operand => if registered id then [] else operand.shownLiterals
  | .aggregate id _ _ operand => if registered id then [] else operand.shownLiterals
  | .binary id _ left right =>
    if registered id then [] else left.shownLiterals ++ right.shownLiterals
  | .compare id _ left right =>
    if registered id then [] else left.shownLiterals ++ right.shownLiterals
  | .like id value pattern =>
    if registered id then [] else value.shownLiterals ++ pattern.shownLiterals
  | .case id condition positive negative =>
    if registered id then []
    else condition.shownLiterals ++ (positive.shownLiterals ++ negative.shownLiterals)
  | .inList id needle values =>
    if registered id then [] else needle.shownLiterals ++ Expr.shownLiteralsAll values
  | .inQuery id needle _ _ => if registered id then [] else needle.shownLiterals

def Expr.shownLiteralsAll : List Expr → List Value
  | [] => []
  | e :: es => e.shownLiterals ++ Expr.shownLiteralsAll es

end

end

section

variable {registered : NodeId → Bool}

theorem Expr.shownLiteralsAll_eq_flatMap (es : List Expr) :
    Expr.shownLiteralsAll registered es = es.flatMap (Expr.shownLiterals registered) := by
  induction es with
  | nil => rfl
  | cons e es ih => rw [shownLiteralsAll, ih, List.flatMap_cons]

theorem Expr.shownLiteralsAll_append (es es' : List Expr) :
    Expr.shownLiteralsAll registered (es ++ es') =
      Expr.shownLiteralsAll registered es ++ Expr.shownLiteralsAll registered es' := by
  simp only [shownLiteralsAll_eq_flatMap, List.flatMap_append]

theorem Expr.shownLiterals_of_registered {e : Expr} (h : registered e.id = true) :
    e.shownLiterals registered = [] := by
  cases e <;> simp_all [shownLiterals, id]

theorem Expr.shownLiterals_of_isNullLiteral {e : Expr} (h : e.isNullLiteral = true) :
    e.shownLiterals registered = [] := by
  cases e <;> simp_all [shownLiterals, isNullLiteral]

/-- An expression that is put together has the literals of what it is put together from.  The operand
that a comparison with null leaves out has none. -/
theorem Expr.Assembles.shownLiterals_eq {e : Expr} {es : List Expr} {ts : List Sql.Scalar}
    {t : Sql.Scalar} (h : e.Assembles es ts t) (hid : registered e.id = false) :
    e.shownLiterals registered = Expr.shownLiteralsAll registered es := by
  cases h with
  | rightNull _ hnull | leftNull _ hnull _ =>
      simp_all [Expr.shownLiterals, Expr.shownLiteralsAll, Expr.id,
        Expr.shownLiterals_of_isNullLiteral hnull]
  | _ => simp_all [Expr.shownLiterals, Expr.shownLiteralsAll, Expr.id]

end

/-! ## One value after the other -/

/-- The nodes that are read from somewhere. -/
def Context.isRegistered (ctx : Context) (id : NodeId) : Bool := (ctx.referenceOf id).isSome

/-- The context after values have been bound as the dialect encodes them, first to last. -/
def Context.bindAll (ctx : Context) (values : List Value) : Context :=
  values.foldl (fun ctx value => ctx.bind (ctx.dialect.encode value)) ctx

namespace Context

variable {d : Dialect} {ctx : Context}

theorem isRegistered_bindAll (ctx : Context) (values : List Value) :
    (ctx.bindAll values).isRegistered = ctx.isRegistered := by
  induction values generalizing ctx with
  | nil => rfl
  | cons value values ih => exact ih _

theorem bindAll_append (ctx : Context) (values values' : List Value) :
    ctx.bindAll (values ++ values') = (ctx.bindAll values).bindAll values' :=
  List.foldl_append

theorem Ordered.bindAll (h : ctx.Ordered d) (values : List Value) :
    (ctx.bindAll values).Ordered d := by
  induction values generalizing ctx with
  | nil => exact h
  | cons value values ih => exact ih (h.bind _)

/-- The values come behind those that were bound before, in order. -/
theorem Ordered.values_bindAll (h : ctx.Ordered d) (values : List Value) :
    (ctx.bindAll values).params.map (·.2) = ctx.params.map (·.2) ++ values.map d.encode := by
  induction values generalizing ctx with
  | nil => exact (List.append_nil _).symm
  | cons value values ih =>
      show ((ctx.bind (ctx.dialect.encode value)).bindAll values).params.map (·.2) = _
      rw [ih (h.bind _), h.params_bind, h.dialect_eq, List.map_append, List.append_assoc]
      rfl

theorem Ordered.length_bindAll (h : ctx.Ordered d) (values : List Value) :
    (ctx.bindAll values).params.length = ctx.params.length + values.length := by
  have hvalues := congrArg List.length (h.values_bindAll values)
  simpa using hvalues

/-- So do their names. -/
theorem Ordered.names_bindAll (h : ctx.Ordered d) (values : List Value) :
    (ctx.bindAll values).params.map (·.1) =
      ctx.params.map (·.1) ++ (List.range' ctx.params.length values.length).map (placeholder d) := by
  rw [(h.bindAll values).keys_eq, h.length_bindAll, h.keys_eq, List.range_add, List.map_append,
    List.range'_eq_map_range]

end Context

/-- Between the moments the values are bound in order, and the numbers are those of their
placeholders. -/
structure Moment.InOrder (values : List Value) (bounds : List Nat) (μ ν : Moment) : Prop where
  context_eq : ν.context = μ.context.bindAll values
  bounds_eq : bounds = List.range' μ.count values.length

namespace Moment.InOrder

variable {d : Dialect} {values values' : List Value} {is is' : List Nat} {μ κ ν : Moment}

theorem refl : InOrder [] [] μ μ := ⟨rfl, rfl⟩

theorem isRegistered_eq (h : InOrder values is μ ν) :
    ν.context.isRegistered = μ.context.isRegistered := by
  rw [h.context_eq, Context.isRegistered_bindAll]

theorem ordered (h : InOrder values is μ ν) (hμ : μ.context.Ordered d) : ν.context.Ordered d :=
  h.context_eq ▸ hμ.bindAll values

theorem append (h : InOrder values is μ κ) (h' : InOrder values' is' κ ν)
    (hμ : μ.context.Ordered d) : InOrder (values ++ values') (is ++ is') μ ν where
  context_eq := by rw [h'.context_eq, h.context_eq, Context.bindAll_append]
  bounds_eq := by
    have hκ : κ.count = μ.count + values.length := by
      rw [count, h.context_eq, hμ.length_bindAll, count]
    rw [h.bounds_eq, h'.bounds_eq, hκ, List.range'_append_1, List.length_append]

end Moment.InOrder

/-! ## Expressions without subqueries -/

section

variable {d : Dialect} {sub : SubqueryCompiler}

mutual

/-- All that happens is that the literals are bound. -/
theorem Writes.inOrder : ∀ {e : Expr} {μ : Moment} {t : Sql.Scalar} {ν : Moment},
    Writes sub e μ t ν → e.nesting = 0 → μ.context.Ordered d →
      Moment.InOrder (e.shownLiterals μ.context.isRegistered) t.bounds μ ν ∧ ν.session = μ.session
  | _, _, _, _, .registered hr, _, _ => by
      rw [Expr.shownLiterals_of_registered (congrArg Option.isSome hr)]
      exact ⟨.refl, rfl⟩
  | .literal id _, μ, _, _, .bound hid hnull, _, _ => by
      have hid : μ.context.isRegistered id = false := congrArg Option.isSome hid
      rw [Expr.shownLiterals, hid, hnull]
      exact ⟨⟨rfl, rfl⟩, rfl⟩
  | e, μ, _, _, .assembled hid ha hes, hflat, hμ => by
      have hid : μ.context.isRegistered e.id = false := congrArg Option.isSome hid
      rw [ha.shownLiterals_eq hid, ha.bounds_eq]
      exact hes.inOrder (Nat.le_zero.1 (hflat ▸ ha.nestingAll_le)) hμ
  | _, _, _, _, .subquery .., hflat, _ => absurd hflat (Nat.succ_ne_zero _)

theorem WritesAll.inOrder : ∀ {es : List Expr} {μ : Moment} {ts : List Sql.Scalar} {ν : Moment},
    WritesAll sub es μ ts ν → Expr.nestingAll es = 0 → μ.context.Ordered d →
      Moment.InOrder (Expr.shownLiteralsAll μ.context.isRegistered es) (Sql.Scalar.boundsAll ts)
          μ ν ∧
        ν.session = μ.session
  | _, _, _, _, .nil, _, _ => ⟨.refl, rfl⟩
  | e :: es, μ, _, _, .cons he hes, hflat, hμ => by
      obtain ⟨hflat, hflats⟩ := Nat.max_eq_zero_iff.1 hflat
      obtain ⟨hfirst, hsession⟩ := he.inOrder hflat hμ
      obtain ⟨hrest, hsessions⟩ := hes.inOrder hflats (hfirst.ordered hμ)
      rw [hfirst.isRegistered_eq] at hrest
      exact ⟨hfirst.append hrest hμ, hsessions.trans hsession⟩

end

/-- The same for expressions that are built first, which the context has no part in. -/
theorem Batch.inOrder {build : Build (List Expr)} {μ : Moment} (b : Batch sub build μ)
    (hflat : ∀ e ∈ (build μ.session.supply).1, e.nesting = 0) (hμ : μ.context.Ordered d) :
    Moment.InOrder (Expr.shownLiteralsAll μ.context.isRegistered (build μ.session.supply).1)
        (Sql.Scalar.boundsAll b.texts) μ b.stop ∧
      b.stop.session.supply = (build μ.session.supply).2 := by
  obtain ⟨hnodes, hcontext, hsession⟩ := takes_build.1 b.built
  rw [hnodes] at hflat ⊢
  rw [hcontext] at hμ
  have hnesting : Expr.nestingAll b.nodes = 0 :=
    Nat.le_zero.1 (Expr.nestingAll_le_iff.2 fun e he => Nat.le_of_eq (hflat e he))
  obtain ⟨horder, hstop⟩ := b.writes.inOrder hnesting hμ
  refine ⟨⟨?_, ?_⟩, ?_⟩
  · rw [horder.context_eq, hcontext]
  · rw [horder.bounds_eq, Moment.count, Moment.count, hcontext]
  · rw [hstop, ← hsession]

end

/-! ## Statements that change rows -/

/-- The expressions that columns are set to, first to last. -/
def Assigned.nodesOnAll (scope : Scope) (row : Row) : List (String × Assigned) → Build (List Expr)
  | [] => return []
  | (_, value) :: rest => do
    let nodes ← value.nodesOn scope row
    let others ← nodesOnAll scope row rest
    return nodes ++ others

/-- The columns of the row that a statement works on, and the expressions that it shows, from left to
right: what columns are set to, and then the condition.  The values of an `INSERT` see no row. -/
def Statement.nodes (scope : Scope) : Statement → Build (List Expr × List Expr)
  | .delete s => do
    let columns ← s.table.instantiate
    let condition ← ExprTerm.nodesOn scope (conjunction s.filters) (.table s.table columns)
    return (columns, condition)
  | .update s => do
    let columns ← s.table.instantiate
    let values ← Assigned.nodesOnAll scope (.table s.table columns) s.assignments
    let condition ← ExprTerm.nodesOn scope (conjunction s.filters) (.table s.table columns)
    return (columns, values ++ condition)
  | .insert s => return ([], s.values.map (·.2))

section

variable {d : Dialect} {sub : SubqueryCompiler} {scope : Scope} {t : Table} {row : Row}

theorem compileAssignments_inOrder : ∀ {assignments : List (String × Assigned)} {μ ν : Moment}
    {r : List (String × Sql.Scalar)},
    (compileAssignments sub scope t row assignments).Takes μ r ν →
      (∀ e ∈ (Assigned.nodesOnAll scope row assignments μ.session.supply).1, e.nesting = 0) →
      μ.context.Ordered d →
      Moment.InOrder (Expr.shownLiteralsAll μ.context.isRegistered
          (Assigned.nodesOnAll scope row assignments μ.session.supply).1)
          (r.flatMap (·.2.bounds)) μ ν ∧
        ν.session.supply = (Assigned.nodesOnAll scope row assignments μ.session.supply).2
  | [], _, _, _, h, _, _ => by
      obtain ⟨rfl, rfl⟩ := takes_pure.1 h
      exact ⟨.refl, rfl⟩
  | (column, value) :: rest, μ, _, _, h, hflat, hμ => by
      simp only [compileAssignments, takes_bind, takes_pure] at h
      obtain ⟨_, _, hcolumn, e, κ, he, sql, ξ, hsql, sqls, _, hrest, rfl, rfl⟩ := h
      obtain rfl := takes_requireColumn hcolumn
      obtain ⟨b, htexts, rfl⟩ := exists_batch_of_assigned he hsql
      have hnodes : Assigned.nodesOnAll scope row ((column, value) :: rest) μ.session.supply =
          ((value.nodesOn scope row μ.session.supply).1 ++ (Assigned.nodesOnAll scope row rest
              (value.nodesOn scope row μ.session.supply).2).1,
            (Assigned.nodesOnAll scope row rest (value.nodesOn scope row μ.session.supply).2).2) := rfl
      rw [hnodes] at hflat ⊢
      obtain ⟨hfirst, hfirsts⟩ := List.forall_mem_append.1 hflat
      obtain ⟨hvalue, hsupply⟩ := b.inOrder hfirst hμ
      rw [← hsupply] at hfirsts ⊢
      obtain ⟨hvalues, hsupplies⟩ := compileAssignments_inOrder hrest hfirsts (hvalue.ordered hμ)
      rw [hvalue.isRegistered_eq] at hvalues
      rw [htexts] at hvalue
      refine ⟨?_, hsupplies⟩
      rw [Expr.shownLiteralsAll_append]
      simpa [Sql.Scalar.boundsAll] using hvalue.append hvalues hμ

theorem compileCondition_inOrder {predicate : Option ExprTerm} {μ ν : Moment}
    {r : Option Sql.Scalar} (h : (compileCondition sub scope predicate row).Takes μ r ν)
    (hflat : ∀ e ∈ (ExprTerm.nodesOn scope predicate row μ.session.supply).1, e.nesting = 0)
    (hμ : μ.context.Ordered d) :
    Moment.InOrder (Expr.shownLiteralsAll μ.context.isRegistered
      (ExprTerm.nodesOn scope predicate row μ.session.supply).1) (Sql.Scalar.boundsOption r) μ ν := by
  obtain ⟨b, htexts, rfl⟩ := exists_batch_of_condition h
  have hbounds : Sql.Scalar.boundsOption r = Sql.Scalar.boundsAll b.texts := by
    rw [← htexts]
    cases r with
    | none => rfl
    | some t => exact (List.append_nil _).symm
  rw [hbounds]
  exact (b.inOrder hflat hμ).1

/-- In an empty context, the nodes that are registered are all that is. -/
theorem Context.isRegistered_registerAll {ids : List NodeId} {names : List String}
    (h : ids.length = names.length) (qualifier : String) :
    ((Context.empty d).registerAll qualifier (ids.zip names)).isRegistered = ids.contains := by
  have hids : (ids.zip names).map (·.1) = ids := List.map_fst_zip (Nat.le_of_eq h)
  funext id
  rw [Context.isRegistered, Bool.eq_iff_iff, List.contains_iff_mem]
  rcases Context.referenceOf_registerAll qualifier id (ids.zip names) (.empty d) with
    ⟨f, hf, rfl, hread⟩ | ⟨hnot, hread⟩
  · rw [hread]
    exact iff_of_true rfl (hids ▸ List.mem_map_of_mem hf)
  · rw [hread]
    exact iff_of_false Bool.false_ne_true (hids ▸ hnot)

theorem compileTarget_takes {μ ν : Moment} (h : (compileTarget t).Takes μ row ν)
    (hempty : μ.context = .empty d) :
    row = .table t (t.instantiate μ.session.supply).1 ∧
      ν.session.supply = (t.instantiate μ.session.supply).2 ∧ ν.context.Ordered d ∧
      ν.context.params = [] ∧
      ν.context.isRegistered = ((t.instantiate μ.session.supply).1.map Expr.id).contains := by
  simp only [compileTarget, takes_bind, takes_pure] at h
  obtain ⟨columns, κ, hcolumns, _, ξ, hregister, rfl, rfl⟩ := h
  obtain ⟨rfl, hκ, hsession⟩ := takes_build.1 hcolumns
  obtain ⟨hξ, hsame⟩ := registerAll_eq_ok.1 hregister
  rw [hempty] at hκ
  rw [← hκ] at hξ
  refine ⟨rfl, ?_, ?_, ?_, ?_⟩
  · rw [← hsame, ← hsession]
  · rw [← hξ]
    exact ((Context.Ordered.empty d).evolves (.registerAll _ _ _)).1
  · rw [← hξ, Context.Tidy.params_registerAll]
    rfl
  · rw [← hξ]
    exact Context.isRegistered_registerAll
      ((List.length_map _).trans (t.instantiate_columns μ.session.supply).2) t.name

theorem nodesOnAll_fixed (scope : Scope) (row : Row) (values : List (String × Expr))
    (supply : Supply) : Assigned.nodesOnAll scope row (values.map fun p => (p.1, .fixed p.2)) supply =
      (values.map (·.2), supply) := by
  induction values with
  | nil => rfl
  | cons value values ih =>
      show (value.2 :: (Assigned.nodesOnAll scope row _ supply).1,
        (Assigned.nodesOnAll scope row _ supply).2) = _
      rw [ih]
      rfl

/-- The numbers are those that the literals of the expressions get with nothing bound before, and the
moment comes behind them.  The columns are all that is registered. -/
def BindsFirst (d : Dialect) (columns es : List Expr) (bounds : List Nat) (ν : Moment) : Prop :=
  ∃ κ : Moment, κ.context.Ordered d ∧ κ.context.params = [] ∧
    Moment.InOrder (Expr.shownLiteralsAll (columns.map Expr.id).contains es) bounds κ ν

section

variable {μ ν : Moment} {change : Sql.Change} (hempty : μ.context = .empty d)

include hempty

theorem Delete.compile_bindsFirst {s : Delete} {nodes : List Expr × List Expr}
    (h : (s.compile sub scope).Takes μ change ν)
    (hnodes : (Statement.nodes scope (.delete s) μ.session.supply).1 = nodes)
    (hflat : ∀ e ∈ nodes.2, e.nesting = 0) : BindsFirst d nodes.1 nodes.2 change.bounds ν := by
  simp only [Delete.compile, takes_bind, takes_pure] at h
  obtain ⟨row, κ, htarget, filter, _, hfilter, rfl, rfl⟩ := h
  obtain ⟨rfl, hsupply, hκ, hparams, hregistered⟩ := compileTarget_takes htarget hempty
  have hbuilt : (Statement.nodes scope (.delete s) μ.session.supply).1 =
      ((s.table.instantiate μ.session.supply).1,
        (ExprTerm.nodesOn scope (conjunction s.filters)
          (.table s.table (s.table.instantiate μ.session.supply).1) κ.session.supply).1) := by
    rw [hsupply]
    rfl
  obtain rfl := hbuilt.symm.trans hnodes
  refine ⟨κ, hκ, hparams, ?_⟩
  rw [← hregistered]
  exact compileCondition_inOrder hfilter hflat hκ

theorem Update.compile_bindsFirst {s : Update} {nodes : List Expr × List Expr}
    (h : (s.compile sub scope).Takes μ change ν)
    (hnodes : (Statement.nodes scope (.update s) μ.session.supply).1 = nodes)
    (hflat : ∀ e ∈ nodes.2, e.nesting = 0) : BindsFirst d nodes.1 nodes.2 change.bounds ν := by
  have h : (if s.assignments.isEmpty then _ else _ : CompileM Sql.Change).Takes μ change ν := h
  split at h
  · exact (takes_throw.1 h).elim
  · simp only [takes_bind, takes_pure] at h
    obtain ⟨row, κ, htarget, assignments, ξ, hassignments, filter, _, hfilter, rfl, rfl⟩ := h
    obtain ⟨rfl, hsupply, hκ, hparams, hregistered⟩ := compileTarget_takes htarget hempty
    let row : Row := .table s.table (s.table.instantiate μ.session.supply).1
    let values := Assigned.nodesOnAll scope row s.assignments κ.session.supply
    have hbuilt : (Statement.nodes scope (.update s) μ.session.supply).1 =
        ((s.table.instantiate μ.session.supply).1, values.1 ++
          (ExprTerm.nodesOn scope (conjunction s.filters) row values.2).1) := by
      unfold values
      rw [hsupply]
      rfl
    obtain rfl := hbuilt.symm.trans hnodes
    obtain ⟨hvaluesFlat, hconditionFlat⟩ := List.forall_mem_append.1 hflat
    obtain ⟨hvalues, hafter⟩ := compileAssignments_inOrder hassignments hvaluesFlat hκ
    have hcondition := compileCondition_inOrder hfilter
      (by rw [hafter]; exact hconditionFlat) (hvalues.ordered hκ)
    rw [hafter, hvalues.isRegistered_eq] at hcondition
    refine ⟨κ, hκ, hparams, ?_⟩
    rw [← hregistered, Expr.shownLiteralsAll_append]
    exact hvalues.append hcondition hκ

theorem Insert.compile_bindsFirst {s : Insert} {nodes : List Expr × List Expr}
    (h : (s.compile sub scope).Takes μ change ν)
    (hnodes : (Statement.nodes scope (.insert s) μ.session.supply).1 = nodes)
    (hflat : ∀ e ∈ nodes.2, e.nesting = 0) : BindsFirst d nodes.1 nodes.2 change.bounds ν := by
  have h : (if s.values.isEmpty then _ else _ : CompileM Sql.Change).Takes μ change ν := h
  split at h
  · exact (takes_throw.1 h).elim
  · simp only [takes_bind, takes_pure] at h
    obtain ⟨values, _, hvalues, rfl, rfl⟩ := h
    have hbuilt : (Statement.nodes scope (.insert s) μ.session.supply).1 =
        ([], (Assigned.nodesOnAll scope .absent (s.values.map fun p => (p.1, .fixed p.2))
          μ.session.supply).1) := by
      rw [nodesOnAll_fixed]
      rfl
    obtain rfl := hbuilt.symm.trans hnodes
    have hregistered : ([] : List NodeId).contains = μ.context.isRegistered := by
      rw [hempty]
      rfl
    have hμ : μ.context.Ordered d := hempty ▸ .empty d
    refine ⟨μ, hμ, by rw [hempty]; rfl, ?_⟩
    rw [List.map_nil, hregistered]
    exact (compileAssignments_inOrder hvalues hflat hμ).1

/-- A statement binds the literals of what it shows, in order, and nothing else. -/
theorem Statement.compile_bindsFirst {st : Statement} {nodes : List Expr × List Expr}
    (h : (st.compile sub scope).Takes μ change ν)
    (hnodes : (st.nodes scope μ.session.supply).1 = nodes)
    (hflat : ∀ e ∈ nodes.2, e.nesting = 0) : BindsFirst d nodes.1 nodes.2 change.bounds ν := by
  cases st with
  | delete s => exact s.compile_bindsFirst hempty h hnodes hflat
  | update s => exact s.compile_bindsFirst hempty h hnodes hflat
  | insert s => exact s.compile_bindsFirst hempty h hnodes hflat

end

end

/-! ## Texts -/

/-- Behind the values that were bound before, the given ones are bound, as the dialect encodes them,
and the text shows their placeholders: in the same order, with the numbers that follow. -/
structure BindsInOrder (d : Dialect) (values : List Value) (before after : List (String × Value))
    (text : String) : Prop where
  shown_eq : placeholdersIn d text = (List.range' before.length values.length).map (placeholder d)
  names_eq : after.map (·.1) = before.map (·.1) ++ placeholdersIn d text
  values_eq : after.map (·.2) = before.map (·.2) ++ values.map d.encode

theorem Moment.InOrder.bindsInOrder {d : Dialect} {values : List Value} {bounds : List Nat}
    {μ ν : Moment} (h : InOrder values bounds μ ν) (hμ : μ.context.Ordered d) {text : String}
    (htext : placeholdersIn d text = bounds.map (placeholder d)) :
    BindsInOrder d values μ.context.params ν.context.params text := by
  have hshown : placeholdersIn d text =
      (List.range' μ.context.params.length values.length).map (placeholder d) := by
    rw [htext, h.bounds_eq]
    rfl
  refine ⟨hshown, ?_, ?_⟩
  · rw [hshown, h.context_eq]
    exact hμ.names_bindAll values
  · rw [h.context_eq]
    exact hμ.values_bindAll values

/-- Values are bound in the order in which their placeholders are read.  This holds of every
expression without subqueries, from every context on, and of every statement that changes rows and
shows no subquery, if the names of parameters, tables, columns and fields that are read cannot be
mistaken for placeholders.  What is bound are the literals other than null, from left to right, less
those at or below nodes that are read from elsewhere: for a statement these are its columns. -/
theorem compile_bindsInOrder (d : Dialect) :
    (∀ (depth level : Nat) (e : Expr) (t : Sql.Scalar) (ctx ctx' : Context) (s s' : Session),
      ctx.Tidy d → e.Tidy d → e.nesting = 0 →
      outcome (e.compile (compileWithin depth)) ctx s = (.ok (t, ctx'), s') →
        BindsInOrder d (e.shownLiterals ctx.isRegistered) ctx.params ctx'.params (t.render d level)) ∧
    (∀ (scope : Scope) (session : Session) (st : Statement) (c : CompiledQuery)
      (columns es : List Expr), Scope.Tidy d scope → st.Tidy d →
      (st.nodes scope session.supply).1 = (columns, es) → (∀ e ∈ es, e.nesting = 0) →
      (compileStatement d scope st session).1 = .ok c →
        BindsInOrder d (es.flatMap (Expr.shownLiterals (columns.map Expr.id).contains)) [] c.params
          c.sql) := by
  constructor
  · intro depth level e t ctx ctx' s s' hctx he hflat hok
    obtain ⟨-, n, -, htidy, -⟩ :=
      Expr.compile_writes (compileWithin_writes depth) he ctx s t ctx' s' hctx hok
    have hctx : ctx.Ordered d := ⟨hctx.dialect_eq, hctx.keys_eq⟩
    have hwrites : Writes (compileWithin depth) e ⟨ctx, s⟩ t ⟨ctx', s'⟩ := e.writes hok
    have htext := Sql.Scalar.placeholdersIn_render level htidy
    exact (hwrites.inOrder hflat hctx).1.bindsInOrder hctx htext
  · intro scope session st c columns es hscope hst hnodes hflat hok
    obtain ⟨change, ctx, s, s', hchange, hs, rfl⟩ := compileStatement_eq_ok hok
    rw [← hs] at hnodes
    have htidy := ((Statement.compile_writes (compileWithin_writes _) hscope hst).of_empty hchange).2.1
    have htakes : (st.compileIn scope).Takes ⟨.empty d, s⟩ change ⟨ctx, s'⟩ := hchange
    obtain ⟨κ, hκ, hparams, horder⟩ := Statement.compile_bindsFirst rfl htakes hnodes hflat
    have hbinds := horder.bindsInOrder hκ (Sql.Change.placeholdersIn_render htidy)
    rwa [hparams, Expr.shownLiteralsAll_eq_flatMap] at hbinds

/-- A value has been bound, and a name and a sum are read from a source. -/
private def readingContext : Context :=
  (((Context.empty .sqlite).bind (.int 7)).register 0 ⟨"a0", "Name"⟩).register 1 ⟨"a0", "Total"⟩

/-- Literals on all sides: below a node that is read from elsewhere, beside null, and null. -/
private def readingExpr : Expr :=
  .case 2
    (.inList 3 (.binary 4 .concat (.column 0 "people" "Name") (.literal 5 (.text "a")))
      [.null 6, .binary 1 .add (.literal 7 (.int 40)) (.literal 8 (.int 2)),
        .literal 9 (.bool true)])
    (.literal 10 (.int 5)) (.compare 11 .eq (.literal 12 .null) (.parameter 13 "limit"))

/-- Both columns are set, and two conditions hold together. -/
private def birthday : Statement :=
  .update ⟨⟨"people", ["Name", "Age"]⟩,
    [("Name", .computed (.binary .concat (.named .row "Name") (.literal (.text "!")))),
      ("Age", .computed (.binary .add (.named .row "Age") (.literal (.int 1))))],
    [.compare .lt (.named .row "Age") (.literal (.int 18)),
      .compare .eq (.named .row "Name") .null]⟩

/-- Three literals of the expression are bound behind the first value, and three of the statement. -/
theorem compile_bindsInOrder_birthday :
    (∃ t ctx' s', outcome (readingExpr.compile (compileWithin 0)) readingContext {} =
        (.ok (t, ctx'), s') ∧
      t.render .sqlite 0 =
        "CASE WHEN (a0.Name || :p1) IN (NULL, a0.Total, :p2) THEN :p3 ELSE :limit IS NULL END" ∧
      BindsInOrder .sqlite [.text "a", .bool true, .int 5] readingContext.params ctx'.params
        (t.render .sqlite 0)) ∧
    ∃ c, (compileStatement .sqlite [] birthday {}).1 = .ok c ∧
      BindsInOrder .sqlite [.text "!", .int 1, .int 18] [] c.params c.sql := by
  constructor
  · have hctx : readingContext.Tidy .sqlite := ⟨rfl, by decide +kernel, by decide⟩
    have he : readingExpr.Tidy .sqlite := by
      refine .case (.inList (.binary (.column (by decide) (by decide)) .literal) ?_) .literal
        (.compare .literal (.parameter (by decide)))
      refine List.forall_mem_cons.2 ⟨.null, List.forall_mem_cons.2 ⟨.binary .literal .literal, ?_⟩⟩
      exact List.forall_mem_singleton.2 .literal
    have hrun : (outcome (readingExpr.compile (compileWithin 0)) readingContext {}).1.toOption.map
        (·.1.render .sqlite 0) = some
          "CASE WHEN (a0.Name || :p1) IN (NULL, a0.Total, :p2) THEN :p3 ELSE :limit IS NULL END" := by
      decide +kernel
    obtain ⟨⟨t, ctx'⟩, hr, htext⟩ := Option.map_eq_some_iff.1 hrun
    have hok : outcome (readingExpr.compile (compileWithin 0)) readingContext {} =
        (.ok (t, ctx'), _) := Prod.ext (Except.eq_ok_of_toOption hr) rfl
    have hliterals : readingExpr.shownLiterals readingContext.isRegistered =
        [.text "a", .bool true, .int 5] := by
      decide +kernel
    refine ⟨t, ctx', _, hok, htext, ?_⟩
    rw [← hliterals]
    exact (compile_bindsInOrder .sqlite).1 0 0 readingExpr t readingContext ctx' {} _ hctx he rfl hok
  · have hst : birthday.Tidy .sqlite := by
      refine .update ⟨by decide, by decide⟩ (List.forall_mem_cons.2 ⟨?_, ?_⟩)
        (List.forall_mem_cons.2 ⟨.compare (.named .slot) .literal, ?_⟩)
      · exact .computed (.binary (.named .slot) .literal)
      · exact List.forall_mem_singleton.2 (.computed (.binary (.named .slot) .literal))
      · exact List.forall_mem_singleton.2 (.compare (.named .slot) .null)
    have hscope : Scope.Tidy .sqlite [] := by simp [Scope.Tidy, Scope.leaves]
    have hrun : (compileStatement .sqlite [] birthday {}).1.toOption.isSome := by decide +kernel
    obtain ⟨c, hc⟩ := Option.isSome_iff_exists.1 hrun
    have hok := Except.eq_ok_of_toOption hc
    have hbinds := (compile_bindsInOrder .sqlite).2 [] {} birthday c _ _ hscope hst rfl (by decide) hok
    exact ⟨c, hok, hbinds⟩

end QueryCompiler
