import QueryCompiler.Proofs.Relabelling.Building
import QueryCompiler.Proofs.Steps

/-! # `QueryCompiler.Proofs.Relabelling.Compile` — one compilation under other labels

The compiler passes labels of sources on and never looks at them.  Take two contexts that read the
same nodes from the same fields, the labels of one being those of the other under a renaming `f`,
and that are to give out labels which match under `f` too.  Then a step run in both comes to the
same result, with `f` at each label, or fails in both with the same error:

    ctx   ----- m ----->   a,    ctx₁
     |  f                  |  f   |  f
    ctx'  ----- m ----->   a',   ctx₁'

How far in the two contexts stand is left open, since a statement tree has no level.  The names of
output columns follow the fields that nodes are read from, and so they are the same in both.
-/

namespace QueryCompiler

/-! ## Trees under other labels -/

/-- The reference under another label; the field stays. -/
def Reference.relabel (f : String → String) (r : Reference) : Reference := ⟨f r.qualifier, r.field⟩

namespace Sql

mutual

/-- The expression with other labels for the sources it reads from. -/
def Scalar.relabel (f : String → String) : Scalar → Scalar
  | .reference qualifier field => .reference (f qualifier) field
  | .bound index => .bound index
  | .named name => .named name
  | .null => .null
  | .binary op left right => .binary op (left.relabel f) (right.relabel f)
  | .unary op operand => .unary op (operand.relabel f)
  | .compare op left right => .compare op (left.relabel f) (right.relabel f)
  | .nullTest negated operand => .nullTest negated (operand.relabel f)
  | .aggregate func distinct operand => .aggregate func distinct (operand.relabel f)
  | .countStar => .countStar
  | .case condition positive negative =>
    .case (condition.relabel f) (positive.relabel f) (negative.relabel f)
  | .like value pattern => .like (value.relabel f) (pattern.relabel f)
  | .inList needle values => .inList (needle.relabel f) (Scalar.relabelAll f values)
  | .inSelect needle select => .inSelect (needle.relabel f) (select.relabel f)

def Scalar.relabelAll (f : String → String) : List Scalar → List Scalar
  | [] => []
  | e :: es => e.relabel f :: Scalar.relabelAll f es

def Scalar.relabelOption (f : String → String) : Option Scalar → Option Scalar
  | none => none
  | some e => some (e.relabel f)

def Output.relabelAll (f : String → String) : List Output → List Output
  | [] => []
  | .mk value name :: outputs => .mk (value.relabel f) name :: Output.relabelAll f outputs

def Source.relabel (f : String → String) : Source → Source
  | .table name label => .table name (f label)
  | .derived select label => .derived (select.relabel f) (f label)

def Join.relabelAll (f : String → String) : List Join → List Join
  | [] => []
  | .mk kind table label outer inner :: joins =>
    .mk kind table (f label) (outer.relabel f) (inner.relabel f) :: Join.relabelAll f joins

def OrderItem.relabelAll (f : String → String) : List OrderItem → List OrderItem
  | [] => []
  | .mk key direction :: items => .mk (key.relabel f) direction :: OrderItem.relabelAll f items

/-- The statement with other labels for its sources and for those inside it. -/
def Select.relabel (f : String → String) : Select → Select
  | .mk outputs source joins filter keys having order =>
    .mk (Output.relabelAll f outputs) (source.relabel f) (Join.relabelAll f joins)
      (Scalar.relabelOption f filter) (Scalar.relabelAll f keys) (Scalar.relabelOption f having)
      (OrderItem.relabelAll f order)

end

mutual

/-- The same labels give the same tree. -/
theorem Scalar.relabel_id : ∀ e : Scalar, e.relabel id = e
  | .reference .. | .bound _ | .named _ | .null | .countStar => rfl
  | .unary _ e | .nullTest _ e | .aggregate _ _ e => by simp only [Scalar.relabel, e.relabel_id]
  | .binary _ a b | .compare _ a b | .like a b => by
      simp only [Scalar.relabel, a.relabel_id, b.relabel_id]
  | .case a b c => by simp only [Scalar.relabel, a.relabel_id, b.relabel_id, c.relabel_id]
  | .inList a es => by simp only [Scalar.relabel, a.relabel_id, Scalar.relabelAll_id es]
  | .inSelect a select => by simp only [Scalar.relabel, a.relabel_id, select.relabel_id]

theorem Scalar.relabelAll_id : ∀ es : List Scalar, Scalar.relabelAll id es = es
  | [] => rfl
  | e :: es => by simp only [Scalar.relabelAll, e.relabel_id, Scalar.relabelAll_id es]

theorem Scalar.relabelOption_id : ∀ e : Option Scalar, Scalar.relabelOption id e = e
  | none => rfl
  | some e => by simp only [Scalar.relabelOption, e.relabel_id]

theorem Output.relabelAll_id : ∀ outputs : List Output, Output.relabelAll id outputs = outputs
  | [] => rfl
  | .mk e _ :: outputs => by
      simp only [Output.relabelAll, e.relabel_id, Output.relabelAll_id outputs]

theorem Source.relabel_id : ∀ source : Source, source.relabel id = source
  | .table .. => rfl
  | .derived select _ => by simp only [Source.relabel, select.relabel_id, id_eq]

theorem Join.relabelAll_id : ∀ joins : List Join, Join.relabelAll id joins = joins
  | [] => rfl
  | .mk _ _ _ outer inner :: joins => by
      simp only [Join.relabelAll, outer.relabel_id, inner.relabel_id, Join.relabelAll_id joins,
        id_eq]

theorem OrderItem.relabelAll_id : ∀ items : List OrderItem, OrderItem.relabelAll id items = items
  | [] => rfl
  | .mk e _ :: items => by
      simp only [OrderItem.relabelAll, e.relabel_id, OrderItem.relabelAll_id items]

theorem Select.relabel_id : ∀ select : Select, select.relabel id = select
  | .mk outputs source joins filter keys having order => by
      simp only [Select.relabel, Output.relabelAll_id outputs, source.relabel_id,
        Join.relabelAll_id joins, Scalar.relabelOption_id filter, Scalar.relabelAll_id keys,
        Scalar.relabelOption_id having, OrderItem.relabelAll_id order]

end

variable {f : String → String}

theorem Output.length_relabelAll (outputs : List Output) :
    (Output.relabelAll f outputs).length = outputs.length := by
  induction outputs with
  | nil => rfl
  | cons output outputs ih =>
      obtain ⟨value, name⟩ := output
      simp only [Output.relabelAll, List.length_cons, ih]

theorem Output.relabelAll_zipWith (sqls : List Scalar) : ∀ names : List String,
    Output.relabelAll f (List.zipWith Output.mk sqls names) =
      List.zipWith Output.mk (Scalar.relabelAll f sqls) names := by
  induction sqls with
  | nil => exact fun _ => rfl
  | cons sql sqls ih =>
      intro names
      cases names with
      | nil => rfl
      | cons name names =>
          simp only [List.zipWith_cons_cons, Output.relabelAll, Scalar.relabelAll, ih]

theorem OrderItem.relabelAll_zipWith (sqls : List Scalar) : ∀ keys : List SortTerm,
    OrderItem.relabelAll f (List.zipWith (fun sql key => .mk sql key.direction) sqls keys) =
      List.zipWith (fun sql key => .mk sql key.direction) (Scalar.relabelAll f sqls) keys := by
  induction sqls with
  | nil => exact fun _ => rfl
  | cons sql sqls ih =>
      intro keys
      cases keys with
      | nil => rfl
      | cons key keys =>
          simp only [List.zipWith_cons_cons, OrderItem.relabelAll, Scalar.relabelAll, ih]

end Sql

/-- The compiled statement under other labels; its row and the names of its outputs stay. -/
def Compiled.relabel (f : String → String) (c : Compiled) : Compiled :=
  { c with select := c.select.relabel f }

/-! ## Contexts -/

/-- The second context reads the same fields as the first and is to give out the same labels, each
under the renaming. -/
structure Context.Relabelled (f : String → String) (ctx ctx' : Context) : Prop where
  dialect_eq : ctx'.dialect = ctx.dialect
  params_eq : ctx'.params = ctx.params
  referenceOf_eq : ∀ id, ctx'.referenceOf id = (ctx.referenceOf id).map (Reference.relabel f)
  labels_eq : ∀ n, Context.aliasName (ctx'.nextAlias + n) = f (Context.aliasName (ctx.nextAlias + n))

namespace Context.Relabelled

variable {f : String → String} {ctx ctx' : Context}

/-- Contexts that differ in the level, or in entries that are hidden, match as they are. -/
theorem same (hdialect : ctx'.dialect = ctx.dialect) (hparams : ctx'.params = ctx.params)
    (hread : ∀ id, ctx'.referenceOf id = ctx.referenceOf id)
    (hnext : ctx'.nextAlias = ctx.nextAlias) : ctx.Relabelled id ctx' where
  dialect_eq := hdialect
  params_eq := hparams
  referenceOf_eq id := (hread id).trans Option.map_id'.symm
  labels_eq _ := by rw [hnext, id_eq]

theorem label_eq (h : ctx.Relabelled f ctx') :
    Context.aliasName ctx'.nextAlias = f (Context.aliasName ctx.nextAlias) :=
  h.labels_eq 0

theorem takeAlias (h : ctx.Relabelled f ctx') : ctx.takeAlias.Relabelled f ctx'.takeAlias :=
  { h with
    labels_eq := fun n => by
      simpa only [Context.takeAlias, Nat.add_assoc, Nat.add_comm 1 n] using h.labels_eq (n + 1) }

theorem withIndent (h : ctx.Relabelled f ctx') (n n' : Nat) :
    Context.Relabelled f { ctx with indent := n } { ctx' with indent := n' } :=
  { h with }

theorem bind (h : ctx.Relabelled f ctx') (v : Value) : (ctx.bind v).Relabelled f (ctx'.bind v) :=
  { h with params_eq := by simp only [Context.bind, h.dialect_eq, h.params_eq] }

theorem register (h : ctx.Relabelled f ctx') (id : NodeId) (r : Reference) :
    (ctx.register id r).Relabelled f (ctx'.register id (r.relabel f)) := by
  refine { h with referenceOf_eq := fun j => ?_ }
  simp only [Context.referenceOf, Context.register, List.lookup_cons]
  split
  · rfl
  · exact h.referenceOf_eq j

theorem registerAll {ctx ctx' : Context} (h : ctx.Relabelled f ctx') (qualifier : String)
    (fields : List (NodeId × String)) :
    (ctx.registerAll qualifier fields).Relabelled f (ctx'.registerAll (f qualifier) fields) := by
  induction fields generalizing ctx ctx' with
  | nil => exact h
  | cons field fields ih => exact ih (h.register field.1 ⟨qualifier, field.2⟩)

/-- Outputs are named by the fields that they are read from, not by labels. -/
theorem candidates_eq (h : ctx.Relabelled f ctx') : ∀ (index : Nat) (given : List String)
    (es : List Expr), candidates ctx'.referenceOf index given es =
      candidates ctx.referenceOf index given es
  | _, _, [] => rfl
  | index, given, e :: es => by
      rw [candidates, candidates, h.candidates_eq (index + 1) given.tail es, h.referenceOf_eq]
      unfold candidate
      generalize (given.head?.map Text.trim).filter _ = name
      cases name <;> cases ctx.referenceOf e.id <;> rfl

theorem outputNames_eq (h : ctx.Relabelled f ctx') (given : List String) (es : List Expr) :
    outputNames ctx'.referenceOf given es = outputNames ctx.referenceOf given es := by
  rw [outputNames, outputNames, h.candidates_eq]

end Context.Relabelled

/-! ## Steps -/

/-- The second outcome is the first under other labels, or the same error; the sessions go on with
the same identities. -/
inductive OutcomeRelabelled (f : String → String) {α : Type} (g : α → α) :
    Except CompileError (α × Context) × Session → Except CompileError (α × Context) × Session → Prop
  | ok {a ctx ctx' s s'} : Context.Relabelled f ctx ctx' → s'.supply.upcoming = s.supply.upcoming →
      OutcomeRelabelled f g (.ok (a, ctx), s) (.ok (g a, ctx'), s')
  | error {e s s'} : s'.supply.upcoming = s.supply.upcoming →
      OutcomeRelabelled f g (.error e, s) (.error e, s')

namespace CompileM

/-- From contexts that match under a renaming, and the same identities to come, both steps come to
outcomes that match; `g` is what the renaming does to results. -/
def Relabels (f : String → String) {α : Type} (g : α → α) (m m' : CompileM α) : Prop :=
  ∀ (ctx ctx' : Context) (s s' : Session), ctx.Relabelled f ctx' →
    s'.supply.upcoming = s.supply.upcoming →
      OutcomeRelabelled f g (outcome m ctx s) (outcome m' ctx' s')

namespace Relabels

variable {f : String → String} {α β : Type} {g : α → α} {h : β → β}

protected theorem pure {a a' : α} (ha : g a = a') : Relabels f g (pure a) (pure a') := by
  subst ha
  exact fun _ _ _ _ hc hs => .ok hc hs

theorem throw (e : CompileError) : Relabels f g (throw e) (throw e) := fun _ _ _ _ _ hs => .error hs

protected theorem bind {m m' : CompileM α} {k k' : α → CompileM β} (hm : Relabels f g m m')
    (hk : ∀ a, Relabels f h (k a) (k' (g a))) : Relabels f h (m >>= k) (m' >>= k') := by
  intro ctx ctx' s s' hc hs
  rw [outcome_bind, outcome_bind]
  have hfirst := hm ctx ctx' s s' hc hs
  revert hfirst
  generalize outcome m ctx s = r
  generalize outcome m' ctx' s' = r'
  intro hfirst
  cases hfirst with
  | @ok a _ _ _ _ hc hs => exact hk a _ _ _ _ hc hs
  | error hs => exact .error hs

/-- What a step does with the context it reads. -/
theorem withContext {k k' : Context → CompileM α}
    (hk : ∀ {ctx ctx'}, ctx.Relabelled f ctx' → Relabels f g (k ctx) (k' ctx')) :
    Relabels f g (get >>= k) (get >>= k') :=
  fun ctx ctx' s s' hc hs => hk hc ctx ctx' s s' hc hs

theorem build {b : Build α} (hb : b.Settled) : Relabels f id (build b) (build b) := by
  intro ctx ctx' s s' hc hs
  obtain ⟨ha, hs⟩ := hb.congr hs
  rw [outcome_build, outcome_build, ha]
  exact .ok hc hs

theorem report (event event' : Event) : Relabels f id (report event) (report event') :=
  fun _ _ _ _ hc hs => .ok hc hs

theorem registerAll (qualifier : String) (fields : List (NodeId × String)) :
    Relabels f id (registerAll qualifier fields) (registerAll (f qualifier) fields) :=
  fun _ _ _ _ hc hs => .ok (hc.registerAll qualifier fields) hs

theorem takeAlias : Relabels f f takeAlias takeAlias := by
  intro ctx ctx' s s' hc hs
  rw [outcome_takeAlias, outcome_takeAlias, hc.label_eq]
  exact .ok hc.takeAlias hs

theorem bindValue (v : Value) : Relabels f id (bindValue v) (bindValue v) := by
  intro ctx ctx' s s' hc hs
  rw [outcome_bindValue, outcome_bindValue, hc.params_eq]
  exact .ok (hc.bind v) hs

theorem indented {m m' : CompileM α} (levels : Nat) (hm : Relabels f g m m') :
    Relabels f g (indented levels m) (indented levels m') := by
  intro ctx ctx' s s' hc hs
  rw [outcome_indented, outcome_indented]
  have hinner := hm _ _ s s' (hc.withIndent (ctx.indent + levels) (ctx'.indent + levels)) hs
  revert hinner
  generalize outcome m _ s = r
  generalize outcome m' _ s' = r'
  intro hinner
  cases hinner with
  | ok hc hs => exact .ok (hc.withIndent ctx.indent ctx'.indent) hs
  | error hs => exact .error hs

theorem normalize (q : Query) : Relabels f id (normalize q) (normalize q) := by
  intro ctx ctx' s s' hc hs
  obtain ⟨trace, hq⟩ := outcome_normalize q ctx s
  obtain ⟨trace', hq'⟩ := outcome_normalize q ctx' s'
  rw [hq, hq']
  exact .ok hc hs

/-- A registered node is read from the matching field, any other is written by its own form. -/
theorem registeredOr (id : NodeId) {own own' : CompileM Sql.Scalar}
    (hown : Relabels f (Sql.Scalar.relabel f) own own') :
    Relabels f (Sql.Scalar.relabel f) (registeredOr id own) (registeredOr id own') := by
  intro ctx ctx' s s' hc hs
  rw [outcome_registeredOr, outcome_registeredOr, hc.referenceOf_eq]
  cases ctx.referenceOf id with
  | none => exact hown ctx ctx' s s' hc hs
  | some r => exact .ok hc hs

end Relabels

end CompileM

open CompileM (Relabels)

/-! ## Expressions -/

variable {f : String → String}

theorem compileLiteral_relabels (v : Value) :
    Relabels f (Sql.Scalar.relabel f) (compileLiteral v) (compileLiteral v) := by
  unfold compileLiteral
  split
  · exact .pure rfl
  · refine Relabels.withContext fun hc => ?_
    rw [hc.dialect_eq]
    exact (Relabels.bindValue _).bind fun _ => .pure rfl

theorem requireOneColumn_relabels (select : Sql.Select) :
    Relabels f id (requireOneColumn select) (requireOneColumn (select.relabel f)) := by
  obtain ⟨outputs, source, joins, filter, keys, having, order⟩ := select
  unfold requireOneColumn
  dsimp only [Sql.Select.relabel, Sql.Select.outputs]
  rw [Sql.Output.length_relabelAll]
  split
  · exact .pure rfl
  · exact .throw _

def SubqueryCompiler.Relabels (f : String → String) (sub : SubqueryCompiler) : Prop :=
  ∀ q scope, CompileM.Relabels f (Sql.Select.relabel f) (sub q scope) (sub q scope)

mutual

theorem Expr.compile_relabels {sub : SubqueryCompiler} (hsub : sub.Relabels f) : ∀ e : Expr,
    Relabels f (Sql.Scalar.relabel f) (e.compile sub) (e.compile sub)
  | .literal id v => .registeredOr id (compileLiteral_relabels v)
  | .null id | .parameter id _ | .countStar id => .registeredOr id (.pure rfl)
  | .column id _ _ | .unknown id _ | .inList id _ [] => .registeredOr id (.throw _)
  | .unary id _ e | .aggregate id _ _ e => .registeredOr id <|
      (e.compile_relabels hsub).bind fun _ => .pure rfl
  | .binary id _ a b | .like id a b => .registeredOr id <|
      (a.compile_relabels hsub).bind fun _ => (b.compile_relabels hsub).bind fun _ => .pure rfl
  | .compare id op a b => .registeredOr id <| by
      -- which operands are written is told by their kinds, and both runs see the same nodes
      split
      · exact (a.compile_relabels hsub).bind fun _ => .pure rfl
      · exact (b.compile_relabels hsub).bind fun _ => .pure rfl
      · exact (a.compile_relabels hsub).bind fun _ => (b.compile_relabels hsub).bind fun _ => .pure rfl
  | .case id a b c => .registeredOr id <|
      (a.compile_relabels hsub).bind fun _ => (b.compile_relabels hsub).bind fun _ =>
        (c.compile_relabels hsub).bind fun _ => .pure rfl
  | .inList id a (e :: es) => .registeredOr id <|
      (a.compile_relabels hsub).bind fun _ => (e.compile_relabels hsub).bind fun _ =>
        (Expr.compileAll_relabels hsub es).bind fun _ => .pure rfl
  | .inQuery id a q scope => .registeredOr id <|
      (a.compile_relabels hsub).bind fun _ => (Relabels.normalize q).bind fun q =>
        ((hsub q scope).indented 2).bind fun select =>
          (requireOneColumn_relabels select).bind fun _ => .pure rfl

theorem Expr.compileAll_relabels {sub : SubqueryCompiler} (hsub : sub.Relabels f) : ∀ es : List Expr,
    Relabels f (Sql.Scalar.relabelAll f) (Expr.compileAll sub es) (Expr.compileAll sub es)
  | [] => .pure rfl
  | e :: es => (e.compile_relabels hsub).bind fun _ =>
      (Expr.compileAll_relabels hsub es).bind fun _ => .pure rfl

end

/-! ## Sources -/

abbrev relabelSource (f : String → String) : Sql.Source × Row → Sql.Source × Row :=
  Prod.map (Sql.Source.relabel f) id

theorem compileTable_relabels (t : Table) :
    Relabels f (relabelSource f) (compileTable t) (compileTable t) :=
  (Relabels.build t.instantiate_settled).bind fun _ => Relabels.takeAlias.bind fun label =>
    (Relabels.registerAll label _).bind fun _ => .pure rfl

theorem compileDerived_relabels (inner : Compiled) :
    Relabels f (relabelSource f) (compileDerived inner) (compileDerived (inner.relabel f)) :=
  Relabels.takeAlias.bind fun label => (Relabels.registerAll label _).bind fun _ => .pure rfl

/-! ## Clauses -/

section

variable {sub : SubqueryCompiler} (hsub : sub.Relabels f) (scope : Scope)

include hsub

theorem compileJoins_relabels : ∀ (joins : List JoinTerm) (row : Row),
    Relabels f (Prod.map (Sql.Join.relabelAll f) id) (compileJoins sub scope joins row)
      (compileJoins sub scope joins row)
  | [], _ => .pure rfl
  | join :: joins, row => by
      -- one join leaves its tree, as a list of one, and the row of the pair
      have hjoin : Relabels f
          (Prod.map (fun sql => (Sql.Join.relabelAll f [sql]).headD sql) id)
          (compileJoin sub scope join row) (compileJoin sub scope join row) :=
        (Relabels.build join.table.instantiate_settled).bind fun _ =>
        Relabels.takeAlias.bind fun label => (Relabels.registerAll label _).bind fun _ =>
        (Relabels.build (join.outerKey.eval_settled _)).bind fun outerKey =>
        (outerKey.compile_relabels hsub).bind fun _ =>
        (Relabels.build (join.innerKey.eval_settled _)).bind fun innerKey =>
        (innerKey.compile_relabels hsub).bind fun _ =>
        (Relabels.build (join.result.eval_settled _)).bind fun _ => .pure rfl
      refine hjoin.bind fun p => ?_
      obtain ⟨⟨kind, table, label, outer, inner⟩, row⟩ := p
      exact (compileJoins_relabels joins row).bind fun _ => .pure rfl

theorem compileJoinClause_relabels (joins : Option (List JoinTerm)) (row : Row) :
    Relabels f (Prod.map (Sql.Join.relabelAll f) id) (compileJoinClause sub scope joins row)
      (compileJoinClause sub scope joins row) := by
  rcases joins with - | - | ⟨join, joins⟩
  · exact .pure rfl
  · exact .throw _
  · exact compileJoins_relabels hsub scope (join :: joins) row

theorem compileCondition_relabels (term : Option ExprTerm) (row : Row) :
    Relabels f (Sql.Scalar.relabelOption f) (compileCondition sub scope term row)
      (compileCondition sub scope term row) := by
  cases term with
  | none => exact .pure rfl
  | some term =>
      exact (Relabels.build (term.eval_settled _)).bind fun e =>
        (e.compile_relabels hsub).bind fun _ => .pure rfl

theorem compileGrouping_relabels (grouping : Option Grouping) (row : Row) :
    Relabels f (Prod.map (Sql.Scalar.relabelAll f) (Prod.map (Sql.Scalar.relabelOption f) id))
      (compileGrouping sub scope grouping row) (compileGrouping sub scope grouping row) := by
  cases grouping with
  | none => exact .pure rfl
  | some grouping =>
      refine (Relabels.build (ExprTerm.evalAll_settled grouping.keys _)).bind fun keys => ?_
      simp only [id_eq]
      split
      · exact .throw _
      · exact (Expr.compileAll_relabels hsub keys).bind fun _ =>
          (compileCondition_relabels hsub scope grouping.having row).bind fun _ => .pure rfl

theorem compileOrder_relabels (keys : List SortTerm) (row : Row) :
    Relabels f (Sql.OrderItem.relabelAll f) (compileOrder sub scope keys row)
      (compileOrder sub scope keys row) :=
  (Relabels.build (ExprTerm.evalAll_settled _ _)).bind fun es =>
    (Expr.compileAll_relabels hsub es).bind fun sqls =>
      .pure (Sql.OrderItem.relabelAll_zipWith sqls keys)

omit hsub in
theorem givenNames_relabels (given : Option (List String)) (width : Nat) :
    Relabels f id (givenNames given width) (givenNames given width) := by
  cases given with
  | none => exact .pure rfl
  | some names =>
      unfold givenNames
      dsimp only
      split
      · exact .pure rfl
      · exact (Relabels.report _ _).bind fun _ => .pure rfl

theorem compileProjection_relabels (given : Option (List String)) (row : Row) :
    Relabels f (Prod.map (Sql.Output.relabelAll f) id) (compileProjection sub given row)
      (compileProjection sub given row) := by
  unfold compileProjection
  dsimp only
  split
  · exact .throw _
  · refine (Expr.compileAll_relabels hsub row.flatten).bind fun sqls => ?_
    refine (givenNames_relabels given _).bind fun given => Relabels.withContext fun hc => ?_
    rw [id_eq, hc.outputNames_eq]
    exact .pure (Prod.ext (Sql.Output.relabelAll_zipWith sqls _) rfl)

theorem compileClauses_relabels (clauses : Clauses) (stages : List RowTerm)
    (aliases : Option (List String)) (source : Sql.Source) (row : Row) :
    Relabels f (Compiled.relabel f)
      (compileClauses sub scope clauses stages aliases source row)
      (compileClauses sub scope clauses stages aliases (source.relabel f) row) := by
  refine (compileJoinClause_relabels hsub scope clauses.joins row).bind fun p => ?_
  obtain ⟨joins, row⟩ := p
  refine (compileCondition_relabels hsub scope clauses.filter row).bind fun _ => ?_
  refine (compileGrouping_relabels hsub scope clauses.grouping row).bind fun p => ?_
  obtain ⟨keys, having, row⟩ := p
  refine (compileOrder_relabels hsub scope (clauses.order.getD []) row).bind fun _ => ?_
  refine (Relabels.build (RowTerm.runStages_settled scope stages row)).bind fun row => ?_
  exact (compileProjection_relabels hsub (aliases.or (joinAliases clauses.joins)) row).bind
    fun _ => .pure rfl

end

/-! ## Blocks -/

section

variable {sub : SubqueryCompiler}

mutual

theorem Block.compile_relabels (hsub : sub.Relabels f) (scope : Scope) : ∀ block : Block,
    Relabels f (Compiled.relabel f) (block.compile sub scope) (block.compile sub scope)
  | .mk _ clauses base stages aliases => by
      refine Relabels.withContext fun _ => (Relabels.report _ _).bind fun _ => ?_
      refine (base.compile_relabels hsub scope).bind fun p => ?_
      obtain ⟨source, row⟩ := p
      exact compileClauses_relabels hsub scope clauses stages aliases source row

theorem Base.compile_relabels (hsub : sub.Relabels f) (scope : Scope) : ∀ base : Base,
    Relabels f (relabelSource f) (base.compile sub scope) (base.compile sub scope)
  | .table t => compileTable_relabels t
  | .derived block => ((block.compile_relabels hsub scope).indented 1).bind fun inner =>
      compileDerived_relabels inner
  | .strayHaving _ => .throw _

end

theorem Query.compile_relabels (hsub : sub.Relabels f) (scope : Scope) (q : Query) :
    Relabels f (Compiled.relabel f) (q.compile sub scope) (q.compile sub scope) := by
  unfold Query.compile
  cases q.block? with
  | none => exact .throw _
  | some block => exact block.compile_relabels hsub scope

end

/-- Subqueries take no notice of labels, however deep they nest. -/
theorem compileWithin_relabels (depth : Nat) : (compileWithin depth).Relabels f := by
  induction depth with
  | zero => exact fun _ _ => .throw _
  | succ depth ih =>
      exact fun q scope => (q.compile_relabels ih scope).bind fun _ => .pure rfl

end QueryCompiler
