import Mathlib.Data.List.Induction
import Mathlib.Logic.Function.Basic
import QueryCompiler.Proofs.Filters.Conjuncts
import QueryCompiler.Proofs.Fusion.Equations
import QueryCompiler.Proofs.Grounding
import QueryCompiler.Proofs.IdentityIndependence
import QueryCompiler.Proofs.Nesting

/-! # `QueryCompiler.Proofs.Filters.Agreement` — the rows that are removed are those that are selected

A `DELETE` with conditions and a query that filters its table by the same conditions speak of the
same rows.  Both build the conditions over new columns of the table, write them first to last and
bind the same values on the way.  The columns are read under the name of the table by one and under
the first alias by the other, so aliases inside the conditions differ by one:

    DELETE   t.c    a0  a1  ...
    SELECT   a0.c   a1  a2  ...

The nodes between the conditions are built at different turns.  We let the query take its identities
in the order in which it builds the very nodes that the `DELETE` builds, which changes nothing
but the identity named in an error.
-/

namespace QueryCompiler

open CompileM
open Sql.Scalar (leftward rightward relabelAll)

/-! ## The query -/

/-- The rows of a table for which all conditions hold. -/
def Query.filtered (t : Table) (ps : List ExprTerm) : Query := ps.foldl .filter (.table t)

theorem Query.subqueries_foldl_filter (ps : List ExprTerm) (q : Query) :
    (ps.foldl .filter q).subqueries = q.subqueries + ExprTerm.subqueriesAll ps := by
  induction ps generalizing q with
  | nil => rfl
  | cons p ps ih =>
      rw [List.foldl_cons, ih, Query.subqueries, ExprTerm.subqueriesAll, Nat.add_assoc]

/-- A filter over filters is fused with them from the outside in. -/
theorem Query.fused_foldl_filter {q : Query} (hq : q.head ≠ .filter) (ps : List ExprTerm) :
    ∀ last : ExprTerm, (Query.filter (ps.foldl .filter q) last).fused =
      .filter q.fused (ps.foldr (.binary .and) last) := by
  induction ps using List.reverseRecOn with
  | nil => exact fun last => fused_filter hq last
  | append_singleton ps p ih =>
      intro last
      rw [List.foldl_append, List.foldr_append]
      exact (fused_filter_filter _ p last).trans (ih _)

theorem ExprTerm.exists_rightNested (p : ExprTerm) (ps : List ExprTerm) :
    ∃ before last, p :: ps = before ++ [last] ∧
      p.rightNested ps = before.foldr (.binary .and) last := by
  induction ps generalizing p with
  | nil => exact ⟨[], p, rfl, rfl⟩
  | cons p' ps ih =>
      obtain ⟨before, last, hlist, hnested⟩ := ih p'
      exact ⟨p :: before, last, congrArg (p :: ·) hlist, congrArg (ExprTerm.binary .and p) hnested⟩

/-- The conditions of filters, nested to the right. -/
def rightConjunction : List ExprTerm → Option ExprTerm
  | [] => none
  | p :: ps => some (p.rightNested ps)

theorem Query.fused_filtered_cons (t : Table) (p : ExprTerm) (ps : List ExprTerm) :
    (Query.filtered t (p :: ps)).fused = .filter (.table t) (p.rightNested ps) := by
  obtain ⟨before, last, hlist, hnested⟩ := p.exists_rightNested ps
  have htable : (Query.table t).head ≠ .filter := by
    show Head.table ≠ .filter
    decide
  rw [filtered, hlist, List.foldl_append]
  exact (fused_foldl_filter htable before last).trans (by rw [fused_table, ← hnested])

theorem Query.block?_filtered (t : Table) (ps : List ExprTerm) :
    ∃ body, (Query.filtered t ps).normalize.block? =
      some (.mk body { filter := rightConjunction ps } (.table t) [] none) := by
  cases ps with
  | nil => exact ⟨.table t, by rw [filtered, normalize, List.foldl_nil, fused_table]; rfl⟩
  | cons p ps =>
      exact ⟨.filter (.table t) (p.rightNested ps), by rw [normalize, fused_filtered_cons]; rfl⟩

/-! ## Runs -/

theorem compileQuery_fst (d : Dialect) (scope : Scope) (q : Query) (session : Session) :
    ∃ s : Session, s.supply = session.supply ∧ (compileQuery d scope q session).1 =
      (outcome (q.normalize.compileIn scope) (.empty d) s).1.map fun r =>
        ⟨r.1.select.render d 0, r.2.params⟩ := by
  obtain ⟨trace, hnormal⟩ := outcome_normalize q (.empty d)
    { session with trace := session.trace.push (.enteredQuery d) }
  refine ⟨{ session with trace := trace }, rfl, ?_⟩
  rw [compileQuery, start_fst, Query.compileText, outcome_bind, outcome_get]
  dsimp only
  rw [outcome_bind, outcome_report]
  dsimp only [Context.empty] at hnormal ⊢
  rw [outcome_bind, hnormal]
  dsimp only
  rw [outcome_bind]
  generalize outcome (q.normalize.compileIn scope) _ _ = r
  obtain ⟨_ | ⟨compiled, ctx⟩, s⟩ := r <;> rfl

theorem compileStatement_fst (d : Dialect) (scope : Scope) (st : Statement) (session : Session) :
    ∃ s : Session, s.supply = session.supply ∧ (compileStatement d scope st session).1 =
      (outcome (st.compileIn scope) (.empty d) s).1.map fun r => ⟨r.1.render d, r.2.params⟩ := by
  refine ⟨{ session with trace := session.trace.push (.enteredStatement d st.kind) }, rfl, ?_⟩
  rw [compileStatement, start_fst, Statement.compileText, outcome_bind, outcome_get]
  dsimp only
  rw [outcome_bind, outcome_report]
  dsimp only [Context.empty]
  rw [outcome_bind]
  generalize outcome (st.compileIn scope) _ _ = r
  obtain ⟨_ | ⟨change, ctx⟩, s⟩ := r <;> rfl

/-! ## The columns of the table -/

/-- Where a statement that changes rows reads the columns of its table. -/
def Context.targeting (d : Dialect) (t : Table) (columns : List Expr) : Context :=
  (Context.empty d).registerAll t.name ((columns.map Expr.id).zip t.columns)

/-- Where a query reads the columns of the table it starts with. -/
def Context.opening (d : Dialect) (t : Table) (columns : List Expr) : Context :=
  (Context.empty d).takeAlias.registerAll (aliasName 0) ((columns.map Expr.id).zip t.columns)

/-- The renaming from the labels of the query to those of the statement: the first alias stands for
the name of the table, any other for the one before it. -/
structure MovesLabels (t : Table) (f : String → String) : Prop where
  first : f (Context.aliasName 0) = t.name
  later : ∀ n, f (Context.aliasName (n + 1)) = Context.aliasName n
  other : ∀ label, (∀ n, Context.aliasName n ≠ label) → f label = label

theorem exists_movesLabels (t : Table) : ∃ f, MovesLabels t f := by
  have hinj : Function.Injective Context.aliasName := fun _ _ h => Context.aliasName_inj.1 h
  refine ⟨Function.extend Context.aliasName (fun n => n.casesOn t.name Context.aliasName) id,
    ?_, ?_, ?_⟩
  · exact hinj.extend_apply _ _ 0
  · exact fun n => hinj.extend_apply _ _ (n + 1)
  · exact fun label h => Function.extend_apply' _ _ _ fun ⟨n, hn⟩ => h n hn

theorem Context.opening_relabelled {t : Table} {f : String → String} (hf : MovesLabels t f)
    (d : Dialect) (columns : List Expr) :
    (Context.opening d t columns).Relabelled f (Context.targeting d t columns) := by
  have hempty : (Context.empty d).takeAlias.Relabelled f (Context.empty d) :=
    { dialect_eq := rfl
      params_eq := rfl
      referenceOf_eq := fun _ => rfl
      labels_eq := fun n => by
        show Context.aliasName (0 + n) = f (Context.aliasName (0 + 1 + n))
        rw [Nat.add_right_comm, hf.later] }
  have hcolumns := hempty.registerAll (aliasName 0) ((columns.map Expr.id).zip t.columns)
  rwa [hf.first] at hcolumns

section

variable {d : Dialect} {t : Table} {columns : List Expr} {sub : SubqueryCompiler} {scope : Scope}
  {ctx : Context} {s : Session} {supply : Supply}

theorem outcome_delete (h : t.instantiate s.supply = (columns, supply)) (ps : List ExprTerm) :
    outcome (Statement.compile sub scope (.delete ⟨t, ps⟩)) (.empty d) s =
      outcome (compileCondition sub scope (conjunction ps) (.table t columns) >>= fun filter =>
        pure (.delete t.name filter)) (.targeting d t columns) { s with supply := supply } := by
  have htarget : outcome (compileTarget t) (.empty d) s =
      (.ok (.table t columns, .targeting d t columns), { s with supply := supply }) := by
    have hrun : outcome (compileTarget t) (.empty d) s =
        (.ok (.table t (t.instantiate s.supply).1, .targeting d t (t.instantiate s.supply).1),
          { s with supply := (t.instantiate s.supply).2 }) := rfl
    rw [hrun, h]
  rw [Statement.compile, Delete.compile, outcome_bind, htarget]

theorem outcome_filtered (h : t.instantiate s.supply = (columns, supply)) (ps : List ExprTerm) :
    ∃ s' : Session, s'.supply = supply ∧
      outcome ((Query.filtered t ps).normalize.compile sub scope) (.empty d) s =
        outcome (compileCondition sub scope (rightConjunction ps) (.table t columns) >>= fun filter =>
          compileProjection sub none (.table t columns) >>= fun p =>
            pure ⟨.mk p.1 (.table t.name (Context.aliasName 0)) [] filter [] none [],
              .table t columns, p.2⟩) (.opening d t columns) s' := by
  obtain ⟨body, hblock⟩ := Query.block?_filtered t ps
  refine ⟨{ trace := s.trace.push (.select ("Select(" ++ body.shape ++ ")") 0), supply := supply },
    rfl, ?_⟩
  rw [Query.compile, hblock]
  dsimp only
  rw [Block.compile, outcome_bind, outcome_get]
  dsimp only
  rw [outcome_bind, outcome_report]
  dsimp only
  rw [outcome_bind]
  have hopen : ∀ trace, outcome (Base.compile sub scope (.table t)) (.empty d)
      { s with trace := trace } =
        (.ok ((.table t.name (Context.aliasName 0), .table t columns), .opening d t columns),
          { trace := trace, supply := supply }) := by
    intro trace
    have hrun : outcome (Base.compile sub scope (.table t)) (.empty d) { s with trace := trace } =
        (.ok ((.table t.name (Context.aliasName 0), .table t (t.instantiate s.supply).1),
          .opening d t (t.instantiate s.supply).1),
          { trace := trace, supply := (t.instantiate s.supply).2 }) := rfl
    rw [hrun, h]
  rw [hopen]
  rfl

/-- Registered expressions are all read from where they are registered. -/
theorem outcome_compileAll_registered {es : List Expr} (h : ∀ e ∈ es, ctx.Registered e.id) :
    ∃ ts, outcome (Expr.compileAll sub es) ctx s = (.ok (ts, ctx), s) := by
  induction es with
  | nil => exact ⟨[], rfl⟩
  | cons e es ih =>
      obtain ⟨he, hes⟩ := List.forall_mem_cons.1 h
      obtain ⟨ts, hts⟩ := ih hes
      obtain ⟨own, hown⟩ := e.exists_own sub
      cases hread : ctx.referenceOf e.id with
      | none => exact absurd he (Context.referenceOf_eq_none.1 hread)
      | some r =>
          have hfirst : outcome (e.compile sub) ctx s =
              (.ok (.reference r.qualifier r.field, ctx), s) := by
            rw [hown, outcome_registeredOr, hread]
          refine ⟨.reference r.qualifier r.field :: ts, ?_⟩
          rw [Expr.compileAll, outcome_bind, hfirst]
          dsimp only
          rw [outcome_bind, hts]
          rfl

theorem outcome_projection_registered {row : Row} (hne : row.flatten ≠ [])
    (h : ∀ e ∈ row.flatten, ctx.Registered e.id) :
    ∃ p, outcome (compileProjection sub none row) ctx s = (.ok (p, ctx), s) := by
  obtain ⟨ts, hts⟩ := @outcome_compileAll_registered sub ctx s _ h
  unfold compileProjection
  dsimp only
  rw [if_neg fun hempty => hne (List.isEmpty_iff.1 hempty), outcome_bind, hts]
  exact ⟨_, rfl⟩

end

/-! ## The conditions -/

/-- What the conditions build over new columns of the table.  The statement takes the identities
behind those of the columns as they come; the query, from a supply that hands out the same ones in
another order, builds the same expressions. -/
structure ConditionsRun (depth : Nat) (d : Dialect) (scope : Scope) (t : Table)
    (columns : List Expr) (ps : List ExprTerm) (s : Supply) (k : Nat) where
  exprs : List Expr
  built : List.Forall₂ (fun p e => ∃ s, (p.evalOn scope (.table t columns) s).1 = e) ps exprs
  count : Nat
  reordered : List NodeId
  perm : reordered.Perm ((s.skip k).next count)
  left : ∀ session : Session, session.supply = s.skip k →
    outcome (compileCondition (compileWithin depth) scope (conjunction ps) (.table t columns))
        (.targeting d t columns) session =
      outcome (Expr.compileAll (compileWithin depth) exprs >>= fun ts => pure (leftward ts))
        (.targeting d t columns) { session with supply := s.skip (k + count) }
  right : ∀ (s' : Supply) (session : Session), (s'.skip k).next count = reordered →
    (s'.skip (k + count)).upcoming = (s.skip (k + count)).upcoming → session.supply = s'.skip k →
    outcome (compileCondition (compileWithin depth) scope (rightConjunction ps) (.table t columns))
        (.opening d t columns) session =
      outcome (Expr.compileAll (compileWithin depth) exprs >>= fun ts => pure (rightward ts))
        (.opening d t columns) { session with supply := s'.skip (k + count) }

section

variable {depth : Nat} {d : Dialect} {scope : Scope} {t : Table} {columns : List Expr} {s : Supply}
  {k : Nat}

/-- Without conditions nothing is built. -/
def ConditionsRun.none : ConditionsRun depth d scope t columns [] s k where
  exprs := []
  built := .nil
  count := 0
  reordered := []
  perm := .nil
  left session hsession := by
    obtain ⟨_, trace⟩ := session
    obtain rfl := hsession
    rfl
  right s' session _ _ hsession := by
    obtain ⟨_, trace⟩ := session
    obtain rfl := hsession
    rfl

/-- A condition over a row that builds the expression is compiled like it. -/
theorem outcome_condition {sub : SubqueryCompiler} {p : ExprTerm} {row : Row} {ctx : Context}
    {session : Session} {ids : List NodeId} {e : Expr} (h : (p.evalOn scope row).Makes ids e)
    (hids : session.supply.next ids.length = ids) :
    outcome (compileCondition sub scope (some p) row) ctx session =
      outcome (e.compile sub >>= fun sql => pure (some sql)) ctx
        { session with supply := session.supply.skip ids.length } := by
  rw [compileCondition, outcome_bind, outcome_build, h _ hids]

theorem Context.registered_targeting {node : NodeId} :
    (Context.targeting d t columns).Registered node ↔
      node ∈ ((columns.map Expr.id).zip t.columns).map (·.1) := by
  rw [targeting, Context.registered_registerAll]
  exact or_iff_left List.not_mem_nil

theorem Context.registered_opening {node : NodeId} :
    (Context.opening d t columns).Registered node ↔
      node ∈ ((columns.map Expr.id).zip t.columns).map (·.1) := by
  rw [opening, Context.registered_registerAll]
  exact or_iff_left List.not_mem_nil

theorem mem_of_column {known : List NodeId} (h : t.instantiate.Makes known columns) {node : NodeId}
    (hnode : node ∈ ((columns.map Expr.id).zip t.columns).map (·.1)) : node ∈ known := by
  obtain ⟨f, hf, rfl⟩ := List.mem_map.1 hnode
  obtain ⟨c, hc, hid⟩ := List.mem_map.1 (List.of_mem_zip hf).1
  exact Table.mem_ids_of_makes h c hc _ (hid ▸ c.id_mem_ids)

/-- Nothing but the columns is registered at the outset, in the statement and in the query. -/
theorem Context.referenceOf_targeting {known : List NodeId} (h : t.instantiate.Makes known columns) :
    ∀ node ∉ known, (Context.targeting d t columns).referenceOf node = none := by
  intro node hnode
  rw [Context.referenceOf_eq_none, Context.registered_targeting]
  exact fun hcolumn => hnode (mem_of_column h hcolumn)

theorem Context.referenceOf_opening {known : List NodeId} (h : t.instantiate.Makes known columns) :
    ∀ node ∉ known, (Context.opening d t columns).referenceOf node = none := by
  intro node hnode
  rw [Context.referenceOf_eq_none, Context.registered_opening]
  exact fun hcolumn => hnode (mem_of_column h hcolumn)

section

variable {sub : SubqueryCompiler} {ctx : Context} {session : Session} {row : Row} {p : ExprTerm}
  {e : Expr} {own : List NodeId} {ps : List ExprTerm} {cs : List Conjunct}

theorem outcome_conjunction (hp : (p.evalOn scope row).Makes own e)
    (hcs : List.Forall₂ (Conjunct.Builds (.clause row :: scope)) ps cs)
    (hlinks : ∀ c ∈ cs, ctx.referenceOf c.link = none)
    (hnext : session.supply.next (own ++ Conjunct.leftIds cs).length = own ++ Conjunct.leftIds cs) :
    outcome (compileCondition sub scope (conjunction (p :: ps)) row) ctx session =
      outcome (Expr.compileAll sub (e :: cs.map (·.expr)) >>= fun ts => pure (leftward ts)) ctx
        { session with supply := session.supply.skip (own ++ Conjunct.leftIds cs).length } := by
  rw [conjunction, outcome_condition (Conjunct.makes_leftNested hcs hp) hnext,
    outcome_bind_congr (Conjunct.outcome_leftNested hlinks e)]
  simp only [Expr.compileAll, bind_assoc, pure_bind, leftward]

theorem outcome_rightConjunction (hp : (p.evalOn scope row).Makes own e)
    (hcs : List.Forall₂ (Conjunct.Builds (.clause row :: scope)) ps cs)
    (hlinks : ∀ c ∈ cs, Unseen ctx (session.supply.skip (own ++ Conjunct.rightIds cs).length)
      (e :: cs.map (·.expr)) c.link)
    (hnext : session.supply.next (own ++ Conjunct.rightIds cs).length = own ++ Conjunct.rightIds cs) :
    outcome (compileCondition (compileWithin depth) scope (rightConjunction (p :: ps)) row) ctx
        session =
      outcome (Expr.compileAll (compileWithin depth) (e :: cs.map (·.expr)) >>= fun ts =>
          pure (rightward ts)) ctx
        { session with supply := session.supply.skip (own ++ Conjunct.rightIds cs).length } := by
  have hrun := @Conjunct.outcome_rightNested ctx
    { session with supply := session.supply.skip (own ++ Conjunct.rightIds cs).length }
    depth cs e hlinks
  rw [rightConjunction, outcome_condition (Conjunct.makes_rightNested hcs hp) hnext,
    outcome_bind_congr hrun]
  simp only [Expr.compileAll, bind_assoc, pure_bind, rightward]

end

theorem nonempty_conditionsRun (h : FreshIds scope.ids s.upcoming)
    (hcolumns : t.instantiate.Makes (s.next k) columns) (ps : List ExprTerm) :
    Nonempty (ConditionsRun depth d scope t columns ps s k) := by
  cases ps with
  | nil => exact ⟨.none⟩
  | cons p ps =>
      let inner : Scope := .clause (.table t columns) :: scope
      obtain ⟨n, hp⟩ := p.eval_settled inner (s.skip k)
      obtain ⟨cs, hcs, hids⟩ := Conjunct.exists_leftNested inner ps ((s.skip k).skip n)
      set own := (s.skip k).next n with hown
      set e := (p.eval inner (s.skip k)).1
      have hnext : (s.skip k).next (own ++ Conjunct.leftIds cs).length =
          own ++ Conjunct.leftIds cs := by
        rw [List.length_append, hown, Supply.length_next, Supply.next_add, hids]
      have hperm : (own ++ Conjunct.rightIds cs).Perm (own ++ Conjunct.leftIds cs) :=
        .append_left _ ((Conjunct.rightIds_perm cs).trans (Conjunct.leftIds_perm cs).symm)
      -- A link is none of the columns, is not in scope and is used up, whatever else is registered.
      have hunseen : ∀ {ctx : Context}, (∀ node ∉ s.next k, ctx.referenceOf node = none) → ∀ c ∈ cs,
          Unseen ctx (s.skip (k + (own ++ Conjunct.leftIds cs).length)) (e :: cs.map (·.expr))
            c.link := by
        intro ctx hctx
        refine Conjunct.links_unseen h ?_ (fun id hid => ?_) hctx hp hcs
        · rw [Supply.next_add, hnext]
        · rcases List.mem_append.1 hid with hrow | hscope
          · obtain ⟨c, hc, hmem⟩ := (Expr.mem_idsAll columns).1 hrow
            exact .inr (Table.mem_ids_of_makes hcolumns c hc id hmem)
          · exact .inl hscope
      refine ⟨{
        exprs := e :: cs.map (·.expr)
        built := .cons ⟨_, rfl⟩ (List.forall₂_map_right_iff.2 (hcs.imp fun _ _ hc => hc.exists_run))
        count := (own ++ Conjunct.leftIds cs).length
        reordered := own ++ Conjunct.rightIds cs
        perm := by rwa [hnext]
        left := ?_
        right := ?_ }⟩
      · rintro ⟨_, trace⟩ rfl
        rw [← Supply.skip_skip]
        refine outcome_conjunction hp hcs (fun c hc => ?_) hnext
        exact (hunseen (Context.referenceOf_targeting hcolumns) c hc).unregistered
      · rintro s' ⟨_, trace⟩ hnext' hbehind rfl
        rw [← hperm.length_eq] at hnext'
        rw [← Supply.skip_skip, ← hperm.length_eq]
        refine outcome_rightConjunction hp hcs (fun c hc => ?_) hnext'
        obtain ⟨hunreg, hspent, habsent⟩ := hunseen (Context.referenceOf_opening hcolumns) c hc
        refine ⟨hunreg, fun m => ?_, habsent⟩
        rw [Supply.skip_skip, hperm.length_eq, hbehind]
        exact hspent m

end

/-! ## Agreement -/

theorem CompileError.SameReason.trans {e e' e'' : CompileError} (h : e.SameReason e')
    (h' : e'.SameReason e'') : e.SameReason e'' := by
  cases h with
  | same => exact h'
  | missingAlias =>
      cases h' with
      | same => exact .missingAlias
      | missingAlias => exact .missingAlias

/-- A statement that removes rows and a query, both with the same conditions over a table.  Both are
refused, for the same reason, or both are compiled and bind the same values.  Then each condition is
built over columns of the table and written once, in the given order; the query joins the written
forms as they are, the statement with the labels moved. -/
inductive FiltersAgree (d : Dialect) (scope : Scope) (t : Table) (ps : List ExprTerm) :
    Except CompileError CompiledQuery → Except CompileError CompiledQuery → Prop
  | refused {e e'} : e.SameReason e' → FiltersAgree d scope t ps (.error e) (.error e')
  | compiled {columns es conditions outputs f s s' last} :
      (∃ supply, (t.instantiate supply).1 = columns) →
      List.Forall₂ (fun p e => ∃ supply, (p.evalOn scope (.table t columns) supply).1 = e) ps es →
      WritesAll (compileWithin (ExprTerm.subqueriesAll ps + scope.nesting)) es
        ⟨.opening d t columns, s⟩ conditions ⟨last, s'⟩ →
      MovesLabels t f →
      FiltersAgree d scope t ps
        (.ok ⟨(Sql.Change.delete t.name (leftward (relabelAll f conditions))).render d, last.params⟩)
        (.ok ⟨(Sql.Select.mk outputs (.table t.name (Context.aliasName 0)) [] (rightward conditions)
          [] none []).render d 0, last.params⟩)

section

variable {d : Dialect} {scope : Scope} {t : Table} {columns : List Expr} {ps : List ExprTerm}

/-- The query binds the same from another supply, and is refused for the same reason. -/
theorem FiltersAgree.congr_right {r r' r'' : Except CompileError CompiledQuery}
    (h : FiltersAgree d scope t ps r r') (hr : SameUpToIdentities r' r'') :
    FiltersAgree d scope t ps r r'' := by
  cases hr with
  | compiled => exact h
  | refused he =>
      cases h with
      | refused he' => exact .refused (he'.trans he)

theorem Context.registered_columns (hcolumns : ∃ supply, (t.instantiate supply).1 = columns) :
    ∀ c ∈ columns, (Context.opening d t columns).Registered c.id := by
  obtain ⟨supply, rfl⟩ := hcolumns
  have hlength : (t.instantiate supply).1.length = t.columns.length :=
    Table.columnNodes_length t.name t.columns supply
  intro c hc
  rw [Context.registered_opening, List.map_fst_zip (by simp [hlength])]
  exact List.mem_map_of_mem hc

/-- From the expressions on, the two run alike. -/
theorem FiltersAgree.of_exprs {depth : Nat} {es : List Expr} {σ τ : Session}
    (hdepth : depth = ExprTerm.subqueriesAll ps + scope.nesting)
    (hcolumns : ∃ supply, (t.instantiate supply).1 = columns) (hne : columns ≠ [])
    (hbuilt : List.Forall₂
      (fun p e => ∃ supply, (p.evalOn scope (.table t columns) supply).1 = e) ps es)
    (hsupply : τ.supply.upcoming = σ.supply.upcoming) :
    FiltersAgree d scope t ps
      ((outcome (Expr.compileAll (compileWithin depth) es >>= fun ts =>
          pure (.delete t.name (leftward ts)))
          (.targeting d t columns) τ).1.map fun r => ⟨Sql.Change.render d r.1, r.2.params⟩)
      ((outcome (Expr.compileAll (compileWithin depth) es >>= fun ts =>
          compileProjection (compileWithin depth) none (.table t columns) >>= fun p =>
            pure ⟨.mk p.1 (.table t.name (Context.aliasName 0)) [] (rightward ts) [] none [],
              .table t columns, p.2⟩)
          (.opening d t columns) σ).1.map fun r : Compiled × Context =>
            ⟨r.1.select.render d 0, r.2.params⟩) := by
  obtain ⟨f, hf⟩ := exists_movesLabels t
  have hrun := Expr.compileAll_relabels (compileWithin_relabels depth) es _ _ σ τ
    (Context.opening_relabelled hf d columns) hsupply
  rw [outcome_bind, outcome_bind]
  generalize houtcome :
    outcome (Expr.compileAll (compileWithin depth) es) (.opening d t columns) σ = r at hrun ⊢
  generalize
    outcome (Expr.compileAll (compileWithin depth) es) (.targeting d t columns) τ = r' at hrun ⊢
  cases hrun with
  | error _ => exact .refused .same
  | @ok ts ctx ctx' s s' hctx _ =>
      have hevolves := Expr.compileAll_evolves (compileWithin_evolves depth) es houtcome
      obtain ⟨p, hp⟩ := @outcome_projection_registered (compileWithin depth) ctx s
        (.table t columns) hne fun c hc =>
          (Context.registered_columns hcolumns c hc).evolve hevolves
      have htakes : (Expr.compileAll (compileWithin depth) es).Takes ⟨.opening d t columns, σ⟩ ts
          ⟨ctx, s⟩ := houtcome
      dsimp only
      rw [outcome_bind, hp]
      subst hdepth
      show FiltersAgree d scope t ps
        (.ok ⟨(Sql.Change.delete t.name (leftward (relabelAll f ts))).render d, ctx'.params⟩)
        (.ok ⟨(Sql.Select.mk p.1 (.table t.name (Context.aliasName 0)) [] (rightward ts) [] none
          []).render d 0, ctx.params⟩)
      rw [hctx.params_eq]
      exact .compiled hcolumns hbuilt (Expr.writesAll es htakes) hf

/-- The query takes, in another order, the identities that the statement takes. -/
theorem FiltersAgree.exists_session {session : Session}
    (h : FreshIds scope.ids session.supply.upcoming) (hne : t.columns ≠ []) :
    ∃ session' : Session, FreshIds scope.ids session'.supply.upcoming ∧
      FiltersAgree d scope t ps (compileStatement d scope (.delete ⟨t, ps⟩) session).1
        (compileQuery d scope (.filtered t ps) session').1 := by
  let depth := ExprTerm.subqueriesAll ps + scope.nesting
  obtain ⟨k, hmakes⟩ := t.instantiate_settled session.supply
  set columns := (t.instantiate session.supply).1 with hcolumns
  obtain ⟨run⟩ := @nonempty_conditionsRun depth d scope t columns session.supply k h hmakes ps
  have hperm : (session.supply.next k ++ run.reordered).Perm
      (session.supply.next (k + run.count)) := by
    rw [Supply.next_add]
    exact run.perm.append_left _
  obtain ⟨s', hfresh, hnext, hbehind⟩ := Supply.exists_rearranged h hperm
  rw [Supply.next_add] at hnext
  obtain ⟨hfirst, hrest⟩ := List.append_inj hnext (by simp)
  refine ⟨{ session with supply := s' }, hfresh, ?_⟩
  obtain ⟨τ, hτ, hdelete⟩ := compileStatement_fst d scope (.delete ⟨t, ps⟩) session
  obtain ⟨σ, hσ, hquery⟩ := compileQuery_fst d scope (.filtered t ps) { session with supply := s' }
  have hdepth : (Query.filtered t ps).normalize.subqueries + scope.nesting = depth := by
    rw [Query.subqueries_normalize, Query.filtered, Query.subqueries_foldl_filter, Query.subqueries,
      Nat.zero_add]
  have hnew : t.instantiate τ.supply = (columns, session.supply.skip k) := by rw [hτ, hmakes.run]
  have hnew' : t.instantiate σ.supply = (columns, s'.skip k) := by
    rw [hσ]
    rw [← hfirst] at hmakes
    exact hmakes.run
  obtain ⟨σ', hσ', hselect⟩ := @outcome_filtered d t columns (compileWithin depth) scope σ _ hnew' ps
  have hleft := run.left { τ with supply := session.supply.skip k } rfl
  have hright := run.right s' σ' hrest hbehind hσ'
  rw [hdelete, hquery, Statement.compileIn, Query.compileIn, hdepth, hselect,
    outcome_delete hnew, Statement.nesting, outcome_bind_congr hleft, outcome_bind_congr hright]
  simp only [bind_assoc, pure_bind]
  refine .of_exprs rfl ⟨_, rfl⟩ (fun hnil => hne ?_) run.built hbehind.symm
  have hlength : columns.length = t.columns.length :=
    Table.columnNodes_length t.name t.columns session.supply
  exact List.eq_nil_of_length_eq_zero (by rw [← hlength, hnil, List.length_nil])

/-- The statement has a condition behind it if and only if it is given one. -/
theorem FiltersAgree.exists_where_iff {c : CompiledQuery} {r : Except CompileError CompiledQuery}
    (h : FiltersAgree d scope t ps (.ok c) r) :
    (∃ condition, c.sql = "DELETE FROM " ++ t.name ++ " WHERE " ++ condition) ↔ ps ≠ [] := by
  cases h with
  | @compiled columns es conditions _ f _ _ last hcolumns hbuilt hwrites hf =>
      have hlength : conditions.length = ps.length := hwrites.length_eq.trans hbuilt.length_eq.symm
      cases conditions with
      | nil =>
          have hps : ps = [] := List.eq_nil_of_length_eq_zero hlength.symm
          refine iff_of_false ?_ (not_not_intro hps)
          rintro ⟨condition, htext⟩
          have hbare : "DELETE FROM " ++ t.name ++ "" =
              "DELETE FROM " ++ t.name ++ (" WHERE " ++ condition) :=
            htext.trans String.append_assoc
          rw [String.append_right_inj] at hbare
          exact absurd (String.append_eq_empty_iff.1 hbare.symm).1 (by decide)
      | cons first rest =>
          have hps : ps ≠ [] := List.ne_nil_of_length_pos (hlength ▸ Nat.succ_pos _)
          let joined := (relabelAll f rest).foldl (.binary .and) (first.relabel f)
          refine iff_of_true ⟨joined.render d 0, ?_⟩ hps
          rw [String.append_assoc]
          rfl

end

/-- Removing and selecting agree.  For every table with a column, every list of conditions and every
dialect, the statement that removes the rows for which the conditions hold and the query that selects
them are refused together, for the same reason, or compiled together.  They then bind the same values
in the same order and have all conditions written in them; and the statement has a `WHERE` clause if
and only if there is a condition. -/
theorem delete_agrees_filtered (d : Dialect) (scope : Scope) (t : Table) (ps : List ExprTerm)
    (session session' : Session) (h : FreshIds scope.ids session.supply.upcoming)
    (h' : FreshIds scope.ids session'.supply.upcoming) (hne : t.columns ≠ []) :
    FiltersAgree d scope t ps (compileStatement d scope (.delete ⟨t, ps⟩) session).1
      (compileQuery d scope (.filtered t ps) session').1 ∧
    ∀ c, (compileStatement d scope (.delete ⟨t, ps⟩) session).1 = .ok c →
      ((∃ condition, c.sql = "DELETE FROM " ++ t.name ++ " WHERE " ++ condition) ↔ ps ≠ []) := by
  obtain ⟨session₀, h₀, hagree⟩ := @FiltersAgree.exists_session d scope t ps session h hne
  have hall := hagree.congr_right
    (Query.compileText_sameUpToIdentities h₀ h' d (Query.filtered t ps))
  refine ⟨hall, fun c hc => ?_⟩
  rw [hc] at hall
  exact hall.exists_where_iff

/-- Conditions on active customers, of an age, with an order of more than ten. -/
private def activeBuyers : List ExprTerm :=
  [.compare .eq (.named .row "Active") (.literal (.bool true)),
    .compare .ge (.named .row "Age") (.literal (.int 18)),
    .inQuery (.named .row "Id")
      (.select (.filter (.table ⟨"orders", ["CustomerId", "Total"]⟩)
        (.compare .gt (.named .row "Total") (.literal (.int 10))))
        [.tuple [.expr (.named .row "CustomerId")]] none)]

private def customersByAge : Table := ⟨"customers", ["Id", "Active", "Age"]⟩

/-- The subquery reads from `a0` in the statement and from `a1` in the query. -/
theorem delete_agrees_filtered_activeBuyers :
    (FreshIds (Scope.ids []) (Supply.upcoming ⟨fun n => n, 5⟩) ∧
      FreshIds (Scope.ids []) (Supply.upcoming ⟨fun n => 100 + n, 0⟩) ∧
      customersByAge.columns ≠ []) ∧
    ((compileStatement .sqlite [] (.delete ⟨customersByAge, activeBuyers⟩)
        { supply := ⟨fun n => n, 5⟩ }).1.map fun c => (c.sql, c.params)).toOption = some (
      "DELETE FROM customers WHERE ((customers.Active = :p0) AND (customers.Age >= :p1)) AND " ++
        "(customers.Id IN (\n        SELECT\n            a0.CustomerId AS CustomerId\n" ++
        "        FROM\n            orders a0\n        WHERE\n            a0.Total > :p2\n    ))",
      [(":p0", .int 1), (":p1", .int 18), (":p2", .int 10)]) ∧
    FiltersAgree .sqlite [] customersByAge activeBuyers
      (compileStatement .sqlite [] (.delete ⟨customersByAge, activeBuyers⟩)
        { supply := ⟨fun n => n, 5⟩ }).1
      (compileQuery .sqlite [] (.filtered customersByAge activeBuyers)
        { supply := ⟨fun n => 100 + n, 0⟩ }).1 := by
  have h : FreshIds (Scope.ids []) (Supply.upcoming ⟨fun n => n, 5⟩) :=
    ⟨fun m n hmn => Nat.add_right_cancel hmn, fun _ => List.not_mem_nil⟩
  have h' : FreshIds (Scope.ids []) (Supply.upcoming ⟨fun n => 100 + n, 0⟩) :=
    ⟨fun m n hmn => Nat.add_left_cancel hmn, fun _ => List.not_mem_nil⟩
  have hne : customersByAge.columns ≠ [] := by decide
  refine ⟨⟨h, h', hne⟩, ?_, (delete_agrees_filtered .sqlite [] customersByAge activeBuyers
    { supply := ⟨fun n => n, 5⟩ } { supply := ⟨fun n => 100 + n, 0⟩ } h h' hne).1⟩
  decide +kernel

end QueryCompiler
