import QueryCompiler.Compile.Select
import QueryCompiler.Proofs.Likeness.Steps

/-! # `QueryCompiler.Proofs.Likeness.Compile` — compiling alike queries

The compiler runs in step on alike queries, clause by clause: both runs give out the same aliases
and placeholders, choose the same names, and come to the *same* statement tree.  Trees hold no
identities and no values, so there is nothing left for them to differ in.

The steps are those of the compiler itself: expressions, then the clauses of a block, then blocks,
and last the knot that ties subqueries, by induction on how deep they go.
-/

namespace QueryCompiler

variable {M : Matching} {d d' : Dialect}

open CompileM (InStep)

/-- Both compilers of subqueries come to the same statement on alike queries. -/
def SubqueryCompiler.InStep (M : Matching) (d d' : Dialect) (sub sub' : SubqueryCompiler) : Prop :=
  ∀ {q q' : Query} {scope scope' : Scope}, q.Alike M.values q' → Scope.Alike M scope scope' →
    CompileM.InStep M d d' Eq (sub q scope) (sub' q' scope')

/-! ## Expressions -/

theorem registeredOr_inStep {i i' : NodeId} (hi : M.ids i i') {own own' : CompileM Sql.Scalar}
    (h : InStep M d d' Eq own own') :
    InStep M d d' Eq (registeredOr i own) (registeredOr i' own') := by
  refine (InStep.referenceOf hi).bind fun {r r'} hr => ?_
  subst hr
  cases r with
  | none => exact h
  | some r => exact .pure rfl

theorem compileLiteral_inStep {v w : Value} (h : M.values v w) :
    InStep M d d' Eq (compileLiteral v) (compileLiteral w) := by
  unfold compileLiteral
  rw [← M.values_null h]
  cases hn : v.isNull with
  | true => exact .pure rfl
  | false =>
      refine InStep.withContext fun {ctx ctx'} hc => ?_
      rw [hc.dialect_eq, hc.dialect_eq']
      refine (InStep.bindValue h hn).bind fun hi => ?_
      subst hi
      exact .pure rfl

theorem requireOneColumn_inStep (select : Sql.Select) :
    InStep M d d' (fun _ _ => True) (requireOneColumn select) (requireOneColumn select) := by
  unfold requireOneColumn
  dsimp only
  split
  · exact .pure trivial
  · exact .throw _

variable {sub sub' : SubqueryCompiler}

mutual

/-- Alike expressions have the same written form: what a node is written as depends on its kind,
on whether it is registered and on whether a literal is null. -/
theorem Expr.Alike.compile (hsub : SubqueryCompiler.InStep M d d' sub sub') :
    ∀ {e e' : Expr}, e.Alike M e' → InStep M d d' Eq (e.compile sub) (e'.compile sub')
  | _, _, .literal hi hv => registeredOr_inStep hi (compileLiteral_inStep hv)
  | _, _, .null hi => registeredOr_inStep hi (.pure rfl)
  | _, _, .column hi => registeredOr_inStep hi (.missingAlias "Column" hi)
  | _, _, .parameter hi => registeredOr_inStep hi (.pure rfl)
  | _, _, .binary hi hl hr => registeredOr_inStep hi <|
      (hl.compile hsub).bind fun hl => (hr.compile hsub).bind fun hr => .pure (by rw [hl, hr])
  | _, _, .unary hi ho => registeredOr_inStep hi <|
      (ho.compile hsub).bind fun ho => .pure (by rw [ho])
  | _, _, .compare hi hl hr => registeredOr_inStep hi <| by
      rw [← hl.isNullLiteral_eq, ← hr.isNullLiteral_eq]
      split
      · exact (hl.compile hsub).bind fun h => .pure (by rw [h])
      · exact (hr.compile hsub).bind fun h => .pure (by rw [h])
      · exact (hl.compile hsub).bind fun hl => (hr.compile hsub).bind fun hr =>
          .pure (by rw [hl, hr])
  | _, _, .aggregate hi ho => registeredOr_inStep hi <|
      (ho.compile hsub).bind fun ho => .pure (by rw [ho])
  | _, _, .countStar hi => registeredOr_inStep hi (.pure rfl)
  | _, _, .case hi hc hp hn => registeredOr_inStep hi <|
      (hc.compile hsub).bind fun hc => (hp.compile hsub).bind fun hp =>
        (hn.compile hsub).bind fun hn => .pure (by rw [hc, hp, hn])
  | _, _, .like hi hv hp => registeredOr_inStep hi <|
      (hv.compile hsub).bind fun hv => (hp.compile hsub).bind fun hp => .pure (by rw [hv, hp])
  | _, _, .inList hi _ .nil => registeredOr_inStep hi (.throw _)
  | _, _, .inList hi hn (.cons hv hvs) => registeredOr_inStep hi <|
      (hn.compile hsub).bind fun hn => (hv.compile hsub).bind fun hv =>
        (hvs.compileAll hsub).bind fun hvs => .pure (by rw [hn, hv, hvs])
  | _, _, .inQuery hi hn hq hs => registeredOr_inStep hi <|
      (hn.compile hsub).bind fun hn => (InStep.normalize hq.normalize).bind fun hq =>
        ((hsub hq hs).indented 2).bind fun {select select'} hselect => by
          subst hselect
          exact (requireOneColumn_inStep select).bind fun _ => .pure (by rw [hn])
  | _, _, .unknown hi => registeredOr_inStep hi (.throw _)

theorem Expr.AlikeAll.compileAll (hsub : SubqueryCompiler.InStep M d d' sub sub') :
    ∀ {es es' : List Expr}, Expr.AlikeAll M es es' →
      InStep M d d' Eq (Expr.compileAll sub es) (Expr.compileAll sub' es')
  | _, _, .nil => .pure rfl
  | _, _, .cons h hs =>
      (h.compile hsub).bind fun h => (hs.compileAll hsub).bind fun hs => .pure (by rw [h, hs])

end

/-! ## Names of output columns -/

theorem candidates_eq {refs refs' : NodeId → Option Reference}
    (hrefs : ∀ {i i'}, M.ids i i' → refs i = refs' i') :
    ∀ {es es' : List Expr} (index : Nat) (given : List String), Expr.AlikeAll M es es' →
      candidates refs index given es = candidates refs' index given es' := by
  intro es
  induction es with
  | nil =>
      intro es' index given hs
      cases hs
      rfl
  | cons e es ih =>
      intro es' index given hs
      cases hs with
      | cons h hs =>
          rw [candidates, candidates, ih (index + 1) given.tail hs]
          unfold candidate
          rw [hrefs h.id, h.isColumn_eq]

theorem distinguish_eq {e e' : Expr} (h : e.Alike M e') (all : List Candidate) (c : Candidate) :
    distinguish all c e = distinguish all c e' := by
  cases h <;> rfl

theorem distinguish_map_eq (all : List Candidate) : ∀ {es es' : List Expr} (cs : List Candidate),
    Expr.AlikeAll M es es' →
      (cs.zip es).map (fun (c, e) => distinguish all c e) =
        (cs.zip es').map (fun (c, e) => distinguish all c e)
  | _, _, _, .nil => rfl
  | _, _, [], .cons _ _ => rfl
  | _, _, c :: cs, .cons h hs => by
      simp only [List.zip_cons_cons, List.map_cons, distinguish_eq h all c,
        distinguish_map_eq all cs hs]

/-- Names are chosen by the fields that nodes are read from and by the names of columns. -/
theorem outputNames_eq {refs refs' : NodeId → Option Reference}
    (hrefs : ∀ {i i'}, M.ids i i' → refs i = refs' i') {es es' : List Expr}
    (h : Expr.AlikeAll M es es') (given : List String) :
    outputNames refs given es = outputNames refs' given es' := by
  unfold outputNames
  rw [candidates_eq hrefs 0 given h]
  dsimp only
  rw [distinguish_map_eq _ _ h]

/-! ## Sources -/

def WithRow (M : Matching) {γ : Type} (p p' : γ × Row) : Prop := p.1 = p'.1 ∧ p.2.Alike M p'.2

def Field.Alike (M : Matching) (f f' : Field) : Prop := f.expr.Alike M f'.expr ∧ f.name = f'.name

/-- The same statement with alike rows and fields. -/
structure Compiled.Alike (M : Matching) (c c' : Compiled) : Prop where
  select_eq : c.select = c'.select
  row : c.row.Alike M c'.row
  fields : List.Forall₂ (Field.Alike M) c.fields c'.fields

theorem Expr.AlikeAll.zip_ids : ∀ {es es' : List Expr} (names : List String),
    Expr.AlikeAll M es es' →
      List.Forall₂ (Context.Alike.FieldAlike M) ((es.map Expr.id).zip names)
        ((es'.map Expr.id).zip names)
  | _, _, _, .nil => .nil
  | _, _, [], .cons _ _ => .nil
  | _, _, _ :: names, .cons h hs => .cons ⟨h.id, rfl⟩ (hs.zip_ids names)

theorem Expr.AlikeAll.zipWith_fields : ∀ {es es' : List Expr} (names : List String),
    Expr.AlikeAll M es es' →
      List.Forall₂ (Field.Alike M) (List.zipWith Field.mk es names)
        (List.zipWith Field.mk es' names)
  | _, _, _, .nil => .nil
  | _, _, [], .cons _ _ => .nil
  | _, _, _ :: names, .cons h hs => .cons ⟨h, rfl⟩ (hs.zipWith_fields names)

theorem mem_iff_of_matched {i i' : NodeId} (hi : M.ids i i') {seen seen' : List NodeId}
    (h : List.Forall₂ M.ids seen seen') : i ∈ seen ↔ i' ∈ seen' := by
  induction h with
  | nil => simp
  | cons hj _ ih => rw [List.mem_cons, List.mem_cons, ih, M.ids_unique hi hj]

theorem Field.firstUses_alike {fs fs' : List Field} (h : List.Forall₂ (Field.Alike M) fs fs') :
    ∀ {seen seen' : List NodeId}, List.Forall₂ M.ids seen seen' →
      List.Forall₂ (Field.Alike M) (Field.firstUses seen fs) (Field.firstUses seen' fs') := by
  induction h with
  | nil => intro _ _ _; exact .nil
  | cons hf _ ih =>
      intro seen seen' hs
      have hi := hf.1.id
      simp only [Field.firstUses, mem_iff_of_matched hi hs]
      split
      · exact ih hs
      · exact .cons hf (ih (.cons hi hs))

theorem compileTable_inStep (t : Table) :
    InStep M d d' (WithRow M) (compileTable t) (compileTable t) := by
  refine (InStep.build t.instantiate_inStep).bind fun hc => ?_
  refine InStep.takeAlias.bind fun {label label'} hl => ?_
  subst hl
  exact (InStep.registerAll label (hc.zip_ids t.columns)).bind fun _ => .pure ⟨rfl, .table hc⟩

theorem compileDerived_inStep {c c' : Compiled} (h : c.Alike M c') :
    InStep M d d' (WithRow M) (compileDerived c) (compileDerived c') := by
  refine InStep.takeAlias.bind fun {label label'} hl => ?_
  subst hl
  have hf : List.Forall₂ (Context.Alike.FieldAlike M)
      ((Field.firstUses [] c.fields).map fun f => (f.expr.id, f.name))
      ((Field.firstUses [] c'.fields).map fun f => (f.expr.id, f.name)) := by
    rw [List.forall₂_map_left_iff, List.forall₂_map_right_iff]
    exact (Field.firstUses_alike h.fields .nil).imp fun _ _ hf => ⟨hf.1.id, hf.2⟩
  refine (InStep.registerAll label hf).bind fun _ => .pure ⟨?_, h.row⟩
  rw [h.select_eq]

/-! ## Clauses -/

theorem Expr.AlikeAll.isEmpty_eq {es es' : List Expr} (h : Expr.AlikeAll M es es') :
    es.isEmpty = es'.isEmpty := by
  cases h <;> rfl

theorem Expr.AlikeAll.exprs : ∀ {es es' : List Expr}, Expr.AlikeAll M es es' →
    Row.AlikeAll M (es.map Row.expr) (es'.map Row.expr)
  | _, _, .nil => .nil
  | _, _, .cons h hs => .cons (.expr h) hs.exprs

theorem SortTerm.AlikeAll.keys : ∀ {ks ks' : List SortTerm}, SortTerm.AlikeAll M.values ks ks' →
    ExprTerm.AlikeAll M.values (ks.map (·.key)) (ks'.map (·.key))
  | _, _, .nil => .nil
  | _, _, .cons h hs => .cons h hs.keys

theorem SortTerm.AlikeAll.ofOption {ks ks' : Option (List SortTerm)}
    (h : Option.Rel (SortTerm.AlikeAll M.values) ks ks') :
    SortTerm.AlikeAll M.values (ks.getD []) (ks'.getD []) := by
  cases h with
  | none => exact .nil
  | some h => exact h

theorem SortTerm.AlikeAll.items_eq : ∀ {ks ks' : List SortTerm} (sqls : List Sql.Scalar),
    SortTerm.AlikeAll M.values ks ks' →
      List.zipWith (fun sql key => Sql.OrderItem.mk sql key.direction) sqls ks =
        List.zipWith (fun sql key => Sql.OrderItem.mk sql key.direction) sqls ks'
  | _, _, [], _ => rfl
  | _, _, _ :: _, .nil => rfl
  | _, _, sql :: sqls, .cons _ hs => by
      rw [List.zipWith_cons_cons, List.zipWith_cons_cons, hs.items_eq sqls]
      rfl

theorem JoinTerm.AlikeAll.aliases_eq : ∀ {js js' : List JoinTerm},
    JoinTerm.AlikeAll M.values js js' → js.map (·.aliases) = js'.map (·.aliases)
  | _, _, .nil => rfl
  | _, _, .cons _ _ _ hs => by
      rw [List.map_cons, List.map_cons, hs.aliases_eq]
      rfl

theorem joinAliases_eq {js js' : Option (List JoinTerm)}
    (h : Option.Rel (JoinTerm.AlikeAll M.values) js js') : joinAliases js = joinAliases js' := by
  have hmap : ∀ js : List JoinTerm, js.reverse.findSome? (·.aliases) =
      (js.map (·.aliases)).reverse.findSome? id := by
    intro js
    rw [← List.map_reverse, List.findSome?_map]
    rfl
  unfold joinAliases
  cases h with
  | none => rfl
  | some h => rw [Option.getD_some, Option.getD_some, hmap, hmap, h.aliases_eq]

theorem givenNames_inStep (given : Option (List String)) (width : Nat) :
    InStep M d d' Eq (givenNames given width) (givenNames given width) := by
  unfold givenNames
  cases given with
  | none => exact .pure rfl
  | some names =>
      dsimp only
      split
      · exact .pure rfl
      · exact (InStep.report _ _).bind fun _ => .pure rfl

section

variable {scope scope' : Scope} (hsub : SubqueryCompiler.InStep M d d' sub sub')
  (hs : Scope.Alike M scope scope')

include hsub hs

theorem compileJoins_inStep : ∀ {js js' : List JoinTerm} {row row' : Row},
    JoinTerm.AlikeAll M.values js js' → row.Alike M row' →
      InStep M d d' (WithRow M) (compileJoins sub scope js row) (compileJoins sub' scope' js' row')
  | _, _, _, _, .nil, hr => .pure ⟨rfl, hr⟩
  | .mk _ table _ _ _ _ :: _, _, _, _, .cons ho hi hres hjs, hr => by
      refine InStep.bind (A := WithRow M) ?_ fun {p p'} hp => ?_
      · refine (InStep.build table.instantiate_inStep).bind fun hc => ?_
        refine InStep.takeAlias.bind fun {label label'} hl => ?_
        subst hl
        refine (InStep.registerAll label (hc.zip_ids table.columns)).bind fun _ => ?_
        refine (InStep.build (ho.eval (.cons (.clause hr) hs))).bind fun ho => ?_
        refine (ho.compile hsub).bind fun ho => ?_
        refine (InStep.build (hi.eval (.cons (.clause (.table hc)) hs))).bind fun hi => ?_
        refine (hi.compile hsub).bind fun hi => ?_
        refine (InStep.build (hres.eval (.cons (.joined hr (.table hc)) hs))).bind fun hr => ?_
        exact .pure ⟨by rw [ho, hi]; rfl, hr⟩
      · obtain ⟨sql, row⟩ := p
        obtain ⟨sql', row'⟩ := p'
        obtain ⟨rfl : sql = sql', hr⟩ := hp
        refine (compileJoins_inStep hjs hr).bind fun {p p'} hp => ?_
        obtain ⟨sqls, row⟩ := p
        obtain ⟨sqls', row'⟩ := p'
        obtain ⟨rfl : sqls = sqls', hr⟩ := hp
        exact .pure ⟨rfl, hr⟩

theorem compileJoinClause_inStep {js js' : Option (List JoinTerm)} {row row' : Row}
    (hj : Option.Rel (JoinTerm.AlikeAll M.values) js js') (hr : row.Alike M row') :
    InStep M d d' (WithRow M) (compileJoinClause sub scope js row)
      (compileJoinClause sub' scope' js' row') := by
  cases hj with
  | none => exact .pure ⟨rfl, hr⟩
  | some hj =>
      cases hj with
      | nil => exact .throw _
      | cons ho hi hres hjs => exact compileJoins_inStep hsub hs (.cons ho hi hres hjs) hr

theorem compileCondition_inStep {t t' : Option ExprTerm} {row row' : Row}
    (ht : ExprTerm.AlikeOption M.values t t') (hr : row.Alike M row') :
    InStep M d d' Eq (compileCondition sub scope t row) (compileCondition sub' scope' t' row') := by
  cases ht with
  | none => exact .pure rfl
  | some ht =>
      refine (InStep.build (ht.eval (.cons (.clause hr) hs))).bind fun he => ?_
      exact (he.compile hsub).bind fun he => .pure (by rw [he])

theorem compileGrouping_inStep {g g' : Option Grouping} {row row' : Row}
    (hg : Option.Rel (Grouping.Alike M.values) g g') (hr : row.Alike M row') :
    InStep M d d' (fun p p' => p.1 = p'.1 ∧ WithRow M p.2 p'.2) (compileGrouping sub scope g row)
      (compileGrouping sub' scope' g' row') := by
  cases hg with
  | none => exact .pure ⟨rfl, rfl, hr⟩
  | some hg =>
      refine (InStep.build (hg.keys.evalAll (.cons (.clause hr) hs))).bind fun he => ?_
      rw [he.isEmpty_eq]
      split
      · exact .throw _
      · refine (he.compileAll hsub).bind fun hk => ?_
        refine (compileCondition_inStep hsub hs hg.having hr).bind fun hh => ?_
        exact .pure ⟨hk, hh, .group (.tuple he.exprs) hr⟩

theorem compileOrder_inStep {ks ks' : List SortTerm} {row row' : Row}
    (hk : SortTerm.AlikeAll M.values ks ks') (hr : row.Alike M row') :
    InStep M d d' Eq (compileOrder sub scope ks row) (compileOrder sub' scope' ks' row') := by
  refine (InStep.build (hk.keys.evalAll (.cons (.clause hr) hs))).bind fun he => ?_
  refine (he.compileAll hsub).bind fun {sqls sqls'} hsql => ?_
  subst hsql
  exact .pure (hk.items_eq sqls)

end

theorem compileProjection_inStep (hsub : SubqueryCompiler.InStep M d d' sub sub')
    (given : Option (List String)) {row row' : Row} (hr : row.Alike M row') :
    InStep M d d' (fun p p' => p.1 = p'.1 ∧ List.Forall₂ (Field.Alike M) p.2 p'.2)
      (compileProjection sub given row) (compileProjection sub' given row') := by
  have hf := hr.flatten
  unfold compileProjection
  dsimp only
  rw [hf.isEmpty_eq, hf.length_eq]
  split
  · exact .throw _
  · refine (hf.compileAll hsub).bind fun {sqls sqls'} hsql => ?_
    subst hsql
    refine (givenNames_inStep given _).bind fun {given given'} hgiven => ?_
    subst hgiven
    refine InStep.withContext fun {ctx ctx'} hc => ?_
    rw [outputNames_eq hc.referenceOf_eq hf given]
    exact .pure ⟨rfl, hf.zipWith_fields _⟩

/-! ## Blocks -/

section

variable {scope scope' : Scope} (hsub : SubqueryCompiler.InStep M d d' sub sub')
  (hs : Scope.Alike M scope scope')

include hsub hs

theorem compileClauses_inStep {clauses clauses' : Clauses}
    (hc : Clauses.Alike M.values clauses clauses') {stages stages' : List RowTerm}
    (hst : RowTerm.AlikeAll M.values stages stages') (aliases : Option (List String))
    (source : Sql.Source) {row row' : Row} (hr : row.Alike M row') :
    InStep M d d' (Compiled.Alike M)
      (compileClauses sub scope clauses stages aliases source row)
      (compileClauses sub' scope' clauses' stages' aliases source row') := by
  unfold compileClauses
  refine (compileJoinClause_inStep hsub hs hc.joins hr).bind fun {p p'} hp => ?_
  obtain ⟨joins, row⟩ := p
  obtain ⟨joins', row'⟩ := p'
  obtain ⟨rfl : joins = joins', hr⟩ := hp
  refine (compileCondition_inStep hsub hs hc.filter hr).bind fun {filter filter'} hfilter => ?_
  subst hfilter
  refine (compileGrouping_inStep hsub hs hc.grouping hr).bind fun {p p'} hp => ?_
  obtain ⟨keys, having, row⟩ := p
  obtain ⟨keys', having', row'⟩ := p'
  obtain ⟨rfl : keys = keys', rfl : having = having', hr⟩ := hp
  refine (compileOrder_inStep hsub hs (SortTerm.AlikeAll.ofOption hc.order) hr).bind
    fun {order order'} horder => ?_
  subst horder
  refine (InStep.build (hst.runStages hs hr)).bind fun hr => ?_
  rw [joinAliases_eq hc.joins]
  refine (compileProjection_inStep hsub _ hr).bind fun {p p'} hp => ?_
  obtain ⟨outputs, fields⟩ := p
  obtain ⟨outputs', fields'⟩ := p'
  obtain ⟨rfl : outputs = outputs', hf⟩ := hp
  exact .pure ⟨rfl, hr, hf⟩

end

mutual

/-- Alike blocks come to the same statement. -/
theorem Block.Alike.compile {scope scope' : Scope}
    (hsub : SubqueryCompiler.InStep M d d' sub sub') (hs : Scope.Alike M scope scope') :
    ∀ {block block' : Block}, block.Alike M.values block' →
      InStep M d d' (Compiled.Alike M) (block.compile sub scope) (block'.compile sub' scope')
  | _, _, .mk _ hc hb hst => by
      refine InStep.withContext fun _ => (InStep.report _ _).bind fun _ => ?_
      refine (hb.compile hsub hs).bind fun {p p'} hp => ?_
      obtain ⟨source, row⟩ := p
      obtain ⟨source', row'⟩ := p'
      obtain ⟨rfl : source = source', hr⟩ := hp
      exact compileClauses_inStep hsub hs hc hst _ source hr

theorem Base.Alike.compile {scope scope' : Scope}
    (hsub : SubqueryCompiler.InStep M d d' sub sub') (hs : Scope.Alike M scope scope') :
    ∀ {base base' : Base}, base.Alike M.values base' →
      InStep M d d' (WithRow M) (base.compile sub scope) (base'.compile sub' scope')
  | _, _, .table => compileTable_inStep _
  | _, _, .derived h => ((h.compile hsub hs).indented 1).bind fun hc => compileDerived_inStep hc
  | _, _, .strayHaving h => by
      simp only [Base.compile]
      rw [h.kind_eq, h.shape_eq]
      exact .throw _

end

theorem Query.Alike.compile {scope scope' : Scope}
    (hsub : SubqueryCompiler.InStep M d d' sub sub') (hs : Scope.Alike M scope scope')
    {q q' : Query} (h : q.Alike M.values q') :
    InStep M d d' (Compiled.Alike M) (q.compile sub scope) (q'.compile sub' scope') := by
  have hb := h.block?
  unfold Query.compile
  rw [h.kind_eq, h.shape_eq]
  revert hb
  generalize q.block? = b
  generalize q'.block? = b'
  intro hb
  cases hb with
  | none => exact .throw _
  | some hb => exact hb.compile hsub hs

/-! ## Subqueries -/

theorem compileWithin_inStep (M : Matching) (d d' : Dialect) : ∀ depth : Nat,
    SubqueryCompiler.InStep M d d' (compileWithin depth) (compileWithin depth)
  | 0, _, _, _, _, _, _ => .throw _
  | depth + 1, _, _, _, _, hq, hs =>
      (hq.compile (compileWithin_inStep M d d' depth) hs).bind fun hc => .pure hc.select_eq

theorem Query.Alike.compileIn {scope scope' : Scope} (hs : Scope.Alike M scope scope')
    {q q' : Query} (h : q.Alike M.values q') :
    InStep M d d' (Compiled.Alike M) (q.compileIn scope) (q'.compileIn scope') := by
  unfold Query.compileIn Scope.nesting
  rw [h.subqueries_eq, hs.nesting_eq]
  exact h.compile (compileWithin_inStep M d d' _) hs

end QueryCompiler
