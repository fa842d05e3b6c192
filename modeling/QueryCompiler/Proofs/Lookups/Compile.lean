import QueryCompiler.Proofs.Lookups.Inventory
import QueryCompiler.Proofs.Visits

/-! # `QueryCompiler.Proofs.Lookups.Compile` — what is registered has been looked through

A node that is registered is written as the field it is read from, and nothing in it is looked at.
The invariant that makes up for this speaks of the table of aliases: a node gets into it as a column,
or as an output of a statement that has been written, so everything inside it has been looked at by
then.  Since an identity belongs to one node of the inventory, a node that is found in the table is
the very one that was put there.

    v describes μ     e in v     e is written from μ to ν
    -------------------------------------------------------------
    some v' above v describes ν, and nothing dangles in e at ν

What is carried from clause to clause is that the row at hand is made of nodes of the inventory.
-/

namespace QueryCompiler

open CompileM

/-! ## Nodes that stand for nothing -/

def Context.Registered (ctx : Context) (id : NodeId) : Prop := id ∈ ctx.aliases.map (·.1)

namespace Context

variable {ctx ctx' : Context} {id : NodeId}

theorem Registered.evolve (h : ctx.Registered id) (hctx : ctx.Evolves ctx') :
    ctx'.Registered id := by
  obtain ⟨new, hnew⟩ := hctx.exists_aliases_eq
  rw [Registered, hnew, List.map_append]
  exact List.mem_append_right _ h

theorem registered_of_referenceOf {r : Reference} (h : ctx.referenceOf id = some r) :
    ctx.Registered id := by
  obtain ⟨before, after, haliases, -⟩ := List.lookup_eq_some_iff.1 h
  rw [Registered, haliases]
  simp

theorem referenceOf_eq_none : ctx.referenceOf id = none ↔ ¬ ctx.Registered id := by
  constructor
  · intro h hmem
    obtain ⟨a, ha, rfl⟩ := List.mem_map.1 hmem
    simpa using List.lookup_eq_none_iff.1 h a ha
  · intro h
    by_contra hne
    obtain ⟨r, hr⟩ := Option.ne_none_iff_exists'.1 hne
    exact h (registered_of_referenceOf hr)

theorem registered_registerAll {label : String} : ∀ {fields : List (NodeId × String)}
    {ctx : Context}, (ctx.registerAll label fields).Registered id ↔
      id ∈ fields.map (·.1) ∨ ctx.Registered id
  | [], _ => by simp [registerAll]
  | (id', field) :: fields, ctx => by
      rw [registerAll, registered_registerAll]
      simp only [Registered, register, List.map_cons, List.mem_cons]
      constructor
      · rintro (h | h | h)
        · exact .inl (.inr h)
        · exact .inl (.inl h)
        · exact .inr h
      · rintro ((h | h) | h)
        · exact .inr (.inl h)
        · exact .inl h
        · exact .inr (.inr h)

end Context

/-- The node stands for nothing: a column that was looked up and not found, a list without values, or
a column that is read from nowhere. -/
def Expr.Dangling (ctx : Context) : Expr → Prop
  | .unknown .. => True
  | .inList _ _ [] => True
  | .column id _ _ => ¬ ctx.Registered id
  | _ => False

/-- Nothing dangles in the expression, at whatever depth. -/
def Expr.Sound (ctx : Context) (e : Expr) : Prop := ∀ n, e.Contains n → ¬ n.Dangling ctx

namespace Expr

variable {ctx ctx' : Context} {e : Expr}

theorem Sound.mono (h : e.Sound ctx) (hctx : ∀ id, ctx.Registered id → ctx'.Registered id) :
    e.Sound ctx' := by
  intro n hn hdangling
  refine h n hn ?_
  cases n with
  | column => exact fun hid => hdangling (hctx _ hid)
  | inList _ _ values => cases values <;> exact hdangling
  | _ => exact hdangling

theorem Sound.evolve (h : e.Sound ctx) (hctx : ctx.Evolves ctx') : e.Sound ctx' :=
  h.mono fun _ hid => hid.evolve hctx

theorem sound_of_children (h : ¬ e.Dangling ctx) (hc : ∀ c ∈ e.children, c.Sound ctx) :
    e.Sound ctx := by
  intro n hn
  cases hn with
  | refl => exact h
  | child hmem hn => exact hc _ hmem n hn

theorem sound_of_isNullLiteral (h : e.isNullLiteral = true) : e.Sound ctx := by
  cases e with
  | null | literal => exact sound_of_children not_false (List.forall_mem_nil _)
  | _ => exact absurd h Bool.false_ne_true

theorem sound_of_isColumn (h : e.isColumn = true) (hid : ctx.Registered e.id) : e.Sound ctx := by
  cases e with
  | column => exact sound_of_children (fun hnot => hnot hid) (List.forall_mem_nil _)
  | _ => exact absurd h Bool.false_ne_true

variable {os : List Expr} {ts : List Sql.Scalar} {t : Sql.Scalar}

/-- What is put together of sound operands is sound: a comparison with null leaves out only null. -/
theorem Assembles.sound (h : e.Assembles os ts t) (hos : ∀ o ∈ os, o.Sound ctx) : e.Sound ctx := by
  cases h with
  | rightNull _ hnull =>
      exact sound_of_children not_false (List.forall_mem_cons.2 ⟨hos _ List.mem_cons_self,
        List.forall_mem_singleton.2 (sound_of_isNullLiteral hnull)⟩)
  | leftNull _ hnull _ =>
      exact sound_of_children not_false (List.forall_mem_cons.2 ⟨sound_of_isNullLiteral hnull,
        List.forall_mem_singleton.2 (hos _ List.mem_cons_self)⟩)
  | _ => exact sound_of_children not_false hos

end Expr

/-! ## The table of aliases -/

/-- The supply is that of the inventory, and what is registered is sound. -/
structure Inventory.Describes (v : Inventory) (μ : Moment) : Prop where
  supply_eq : μ.session.supply = v.supply
  sound : ∀ {id}, μ.context.Registered id → ∃ e, v.has e ∧ e.id = id ∧ e.Sound μ.context

theorem takeAlias_still {μ ν : Moment} {label : String} (h : takeAlias.Takes μ label ν) :
    ν.context.aliases = μ.context.aliases ∧ ν.session = μ.session := by
  obtain ⟨-, hctx, hs⟩ := takeAlias_eq_ok.1 h
  exact ⟨hctx ▸ rfl, hs.symm⟩

namespace Inventory.Describes

variable {α : Type} {v : Inventory} {μ ν : Moment}

theorem empty {d : Dialect} {session : Session} (h : session.supply = v.supply) :
    v.Describes ⟨.empty d, session⟩ where
  supply_eq := h
  sound hid := absurd hid List.not_mem_nil

/-- An entry of the table that has the identity of a node is an entry of that node. -/
theorem sound_of_registered (h : v.Describes μ) {e : Expr} (he : v.has e)
    (hid : μ.context.Registered e.id) : e.Sound μ.context := by
  obtain ⟨e', he', hid', hsound⟩ := h.sound hid
  obtain rfl := v.unique he he' hid'.symm
  exact hsound

/-- Only registering and building are of any concern. -/
theorem still (h : v.Describes μ) (haliases : ν.context.aliases = μ.context.aliases)
    (hsupply : ν.session.supply = μ.session.supply) : v.Describes ν where
  supply_eq := hsupply.trans h.supply_eq
  sound {id} hid := by
    have hregistered : ∀ id, ν.context.Registered id ↔ μ.context.Registered id := fun id => by
      rw [Context.Registered, haliases, Context.Registered]
    obtain ⟨e, he, heq, hsound⟩ := h.sound ((hregistered id).1 hid)
    exact ⟨e, he, heq, hsound.mono fun id => (hregistered id).2⟩

theorem report (h : v.Describes μ) {event : Event} {u : Unit}
    (ht : (CompileM.report event).Takes μ u ν) : v.Describes ν := by
  obtain ⟨hctx, hs⟩ := report_eq_ok.1 ht
  refine h.still ?_ ?_
  · rw [← hctx]
  · rw [← hs]

theorem normalize (h : v.Describes μ) {q normal : Query}
    (ht : (CompileM.normalize q).Takes μ normal ν) : v.Describes ν := by
  obtain ⟨trace, hok⟩ := outcome_normalize q μ.context μ.session
  obtain ⟨-, rfl⟩ := ht.unique (ν := ν) (κ := ⟨μ.context, { μ.session with trace := trace }⟩) hok
  exact h.still rfl rfl

theorem takeAlias (h : v.Describes μ) {label : String}
    (ht : CompileM.takeAlias.Takes μ label ν) : v.Describes ν := by
  obtain ⟨haliases, hsession⟩ := takeAlias_still ht
  exact h.still haliases (congrArg Session.supply hsession)

theorem deeper (h : v.Describes μ) (levels : Nat) : v.Describes (μ.deeper levels) := h.still rfl rfl

theorem build (h : v.Describes μ) {b : Build α} {Q : Inventory → α → Prop} (hb : b.Lists v Q) {a : α}
    (ht : (CompileM.build b).Takes μ a ν) : ∃ v', v.Grows v' ∧ v'.Describes ν ∧ Q v' a := by
  obtain ⟨v', hv', hsupply, hq⟩ := hb
  obtain ⟨rfl, hctx, hs⟩ := takes_build.1 ht
  rw [← h.supply_eq] at hsupply hq
  refine ⟨v', hv', ⟨?_, fun {id} hid => ?_⟩, hq⟩
  · rw [← hs, hsupply]
  · rw [← hctx] at hid ⊢
    obtain ⟨e, he, heq, hsound⟩ := h.sound hid
    exact ⟨e, hv' he, heq, hsound⟩

theorem registerAll (h : v.Describes μ) {label : String} {fields : List (NodeId × String)} {u : Unit}
    (hf : ∀ f ∈ fields, ∃ e, v.has e ∧ e.id = f.1 ∧ e.Sound (μ.context.registerAll label fields))
    (ht : (CompileM.registerAll label fields).Takes μ u ν) : v.Describes ν := by
  obtain ⟨hctx, hs⟩ := registerAll_eq_ok.1 ht
  refine ⟨hs ▸ h.supply_eq, fun {id} hid => ?_⟩
  rw [← hctx] at hid ⊢
  rcases Context.registered_registerAll.1 hid with hnew | hold
  · obtain ⟨f, hmem, rfl⟩ := List.mem_map.1 hnew
    exact hf f hmem
  · obtain ⟨e, he, heq, hsound⟩ := h.sound hold
    exact ⟨e, he, heq, hsound.evolve (.registerAll label fields μ.context)⟩

end Inventory.Describes

/-- Going further in leaves a moment that differs by its level alone. -/
theorem CompileM.Takes.exists_indented {α : Type} {m : CompileM α} {levels : Nat} {μ ν : Moment}
    {a : α} (h : (CompileM.indented levels m).Takes μ a ν) :
    ∃ κ, m.Takes (μ.deeper levels) a κ ∧ κ.context.aliases = ν.context.aliases ∧
      κ.session = ν.session := by
  obtain ⟨ctx, hok, hν⟩ := indented_eq_ok.1 h
  exact ⟨⟨ctx, ν.session⟩, hok, hν ▸ rfl, rfl⟩

/-! ## Expressions -/

/-- Subqueries over nodes of an inventory leave one that describes what they register. -/
def SubqueryCompiler.Vouches (sub : SubqueryCompiler) : Prop :=
  ∀ ⦃q : Query⦄ ⦃scope : Scope⦄ ⦃v : Inventory⦄ ⦃μ : Moment⦄ ⦃select : Sql.Select⦄ ⦃ν : Moment⦄,
    v.HasAll (Scope.leaves scope) → v.Describes μ → (sub q scope).Takes μ select ν →
      ∃ v', v.Grows v' ∧ v'.Describes ν

section

variable {sub : SubqueryCompiler}

mutual

/-- Nothing dangles in an expression that has been written. -/
theorem Writes.sound (hsub : sub.Vouches) (hevolves : sub.Evolves) : ∀ {e : Expr} {μ : Moment}
    {t : Sql.Scalar} {ν : Moment}, Writes sub e μ t ν → ∀ {v : Inventory}, v.Describes μ → v.has e →
      ∃ v', v.Grows v' ∧ v'.Describes ν ∧ e.Sound ν.context
  | _, _, _, _, .registered hr, v, hv, he =>
      ⟨v, .refl v, hv, hv.sound_of_registered he (Context.registered_of_referenceOf hr)⟩
  | _, _, _, _, .bound _ _, v, hv, _ =>
      ⟨v, .refl v, hv.still rfl rfl, Expr.sound_of_children not_false (List.forall_mem_nil _)⟩
  | _, _, _, _, .assembled _ ha hos, _, hv, he => by
      obtain ⟨v', hv', hν, hsound⟩ :=
        hos.sound hsub hevolves hv ((Inventory.hasAll_children he).subset ha.subset)
      exact ⟨v', hv', hν, ha.sound hsound⟩
  | _, _, _, _, .subquery _ hneedle hnormal hselect _, _, hv, he => by
      obtain ⟨v₁, hv₁, hκ, hsound⟩ :=
        hneedle.sound hsub hevolves hv (Inventory.hasAll_children he _ List.mem_cons_self)
      obtain ⟨κ, hinner, haliases, hsession⟩ := hselect.exists_indented
      obtain ⟨v₂, hv₂, hν⟩ := hsub ((Inventory.hasAll_captured he).grow hv₁)
        ((hκ.normalize hnormal).deeper 2) hinner
      refine ⟨v₂, hv₁.trans hv₂, hν.still haliases.symm (congrArg Session.supply hsession.symm), ?_⟩
      have hlater := ((Evolves.normalize _).takes hnormal).trans
        (((hevolves _ _).indented 2).takes hselect)
      exact Expr.sound_of_children not_false (List.forall_mem_singleton.2 (hsound.evolve hlater))

theorem WritesAll.sound (hsub : sub.Vouches) (hevolves : sub.Evolves) : ∀ {es : List Expr}
    {μ : Moment} {ts : List Sql.Scalar} {ν : Moment}, WritesAll sub es μ ts ν →
      ∀ {v : Inventory}, v.Describes μ → v.HasAll es →
        ∃ v', v.Grows v' ∧ v'.Describes ν ∧ ∀ e ∈ es, e.Sound ν.context
  | _, _, _, _, .nil, v, hv, _ => ⟨v, .refl v, hv, List.forall_mem_nil _⟩
  | _, _, _, _, .cons he hes, _, hv, hall => by
      have hall := List.forall_mem_cons.1 hall
      obtain ⟨v₁, hv₁, hκ, hsound⟩ := he.sound hsub hevolves hv hall.1
      obtain ⟨v₂, hv₂, hν, hsounds⟩ := hes.sound hsub hevolves hκ fun e he => hv₁ (hall.2 e he)
      exact ⟨v₂, hv₁.trans hv₂, hν,
        List.forall_mem_cons.2 ⟨hsound.evolve (hes.evolves hevolves), hsounds⟩⟩

end

end

/-! ## Sources -/

theorem Table.columnNodes_isColumn (table : String) : ∀ columns : List String,
    Build.Returns (fun es => ∀ e ∈ es, e.isColumn = true) (Table.columnNodes table columns)
  | [] => .pure (List.forall_mem_nil _)
  | _ :: columns => by
      refine Build.Returns.bind (P := fun e => e.isColumn = true) (.node fun _ => rfl) fun e he => ?_
      exact (columnNodes_isColumn table columns).bind fun es hes =>
        .pure (List.forall_mem_cons.2 ⟨he, hes⟩)

section

variable {v : Inventory} {μ ν κ ξ : Moment}

/-- The new columns of a table are read from it once they are registered. -/
theorem Inventory.Describes.columns (h : v.Describes μ) {t : Table} {columns : List Expr}
    (hcolumns : (CompileM.build t.instantiate).Takes μ columns κ)
    (haliases : ξ.context.aliases = κ.context.aliases)
    (hsupply : ξ.session.supply = κ.session.supply) {label : String} {u : Unit}
    (hregister : (CompileM.registerAll label ((columns.map Expr.id).zip t.columns)).Takes ξ u ν) :
    ∃ v', v.Grows v' ∧ v'.Describes ν ∧ v'.HasAll columns := by
  obtain ⟨v', hv', hκ, hall⟩ := h.build (Table.columnNodes_lists t.name t.columns) hcolumns
  have hisColumn : ∀ e ∈ columns, e.isColumn = true :=
    (takes_build.1 hcolumns).1 ▸ Table.columnNodes_isColumn t.name t.columns _
  refine ⟨v', hv', (hκ.still haliases hsupply).registerAll (fun f hf => ?_) hregister, hall⟩
  obtain ⟨e, he, hid⟩ := List.mem_map.1 (List.of_mem_zip hf).1
  refine ⟨e, hall e he, hid, Expr.sound_of_isColumn (hisColumn e he) ?_⟩
  exact Context.registered_registerAll.2 (.inl (hid ▸ List.mem_map_of_mem hf))

theorem Inventory.Describes.table (h : v.Describes μ) {t : Table} {r : Sql.Source × Row}
    (ht : (compileTable t).Takes μ r ν) :
    ∃ v', v.Grows v' ∧ v'.Describes ν ∧ v'.HasAll r.2.leaves := by
  simp only [compileTable, takes_bind, takes_pure] at ht
  obtain ⟨columns, κ, hcolumns, label, ξ, hlabel, u, _, hregister, rfl, rfl⟩ := ht
  obtain ⟨haliases, hsession⟩ := takeAlias_still hlabel
  exact h.columns hcolumns haliases (congrArg Session.supply hsession) hregister

/-- The table that a statement changes. -/
theorem Inventory.Describes.target (h : v.Describes μ) {t : Table} {row : Row}
    (ht : (compileTarget t).Takes μ row ν) :
    ∃ v', v.Grows v' ∧ v'.Describes ν ∧ v'.HasAll row.leaves := by
  simp only [compileTarget, takes_bind, takes_pure] at ht
  obtain ⟨columns, κ, hcolumns, u, _, hregister, rfl, rfl⟩ := ht
  exact h.columns hcolumns rfl rfl hregister

/-- The row of a compiled statement is made of nodes of the inventory, and its outputs are sound. -/
structure Compiled.Vouched (v : Inventory) (μ : Moment) (c : Compiled) : Prop where
  row : v.HasAll c.row.leaves
  fields : ∀ f ∈ c.fields, v.has f.expr ∧ f.expr.Sound μ.context

theorem Inventory.Describes.derived (h : v.Describes μ) {inner : Compiled}
    (hinner : inner.Vouched v μ) {r : Sql.Source × Row} (ht : (compileDerived inner).Takes μ r ν) :
    v.Describes ν ∧ v.HasAll r.2.leaves := by
  simp only [compileDerived, takes_bind, takes_pure] at ht
  obtain ⟨label, κ, hlabel, u, _, hregister, rfl, rfl⟩ := ht
  refine ⟨(h.takeAlias hlabel).registerAll (fun f hf => ?_) hregister, hinner.row⟩
  obtain ⟨field, hmem, rfl⟩ := List.mem_map.1 hf
  obtain ⟨hhas, hsound⟩ := hinner.fields field (Field.firstUses_subset [] _ hmem)
  exact ⟨field.expr, hhas, rfl, hsound.evolve
    ((Evolves.takeAlias.takes hlabel).trans (.registerAll label _ κ.context))⟩

end

/-! ## Clauses -/

/-- At the moment, an inventory above `v` has the expressions. -/
def Inventory.Stocks (v : Inventory) (es : List Expr) (μ : Moment) : Prop :=
  ∃ v', v.Grows v' ∧ v'.Describes μ ∧ v'.HasAll es

theorem Inventory.Stocks.of_grows {v v' : Inventory} {es : List Expr} {μ : Moment}
    (h : v'.Stocks es μ) (hv : v.Grows v') : v.Stocks es μ := by
  obtain ⟨v'', hv'', hμ, hes⟩ := h
  exact ⟨v'', hv.trans hv'', hμ, hes⟩

section

variable {v : Inventory} {scope : Scope} {row : Row}

theorem ExprTerm.nodesOn_lists (term : Option ExprTerm) (hs : v.HasAll (Scope.leaves scope))
    (hr : v.HasAll row.leaves) :
    Build.Lists v Inventory.HasAll (ExprTerm.nodesOn scope term row) := by
  cases term with
  | none => exact .pure .nil
  | some term => exact (term.eval_lists (hr.append hs)).bind fun _ _ _ he => .pure (.cons he .nil)

theorem Grouping.nodesOn_lists (grouping : Option Grouping) (hs : v.HasAll (Scope.leaves scope))
    (hr : v.HasAll row.leaves) :
    Build.Lists v Inventory.HasAll (Grouping.nodesOn scope grouping row) := by
  cases grouping with
  | none => exact .pure .nil
  | some grouping => exact ExprTerm.evalAll_lists grouping.keys (hr.append hs)

theorem Grouping.hasAll_behind {keys : List Expr} (grouping : Option Grouping) (hk : v.HasAll keys)
    (hr : v.HasAll row.leaves) : v.HasAll (Grouping.behind keys grouping row).leaves := by
  cases grouping with
  | none => exact hr
  | some _ =>
      rw [Grouping.behind, Row.leaves, Row.leaves, Row.leavesAll_map_expr]
      exact hk.append hr

end

section

variable {sub : SubqueryCompiler} {scope : Scope} {μ ν : Moment} {v : Inventory}

/-- What a clause builds over nodes of the inventory is in a larger one, and sound once it is
written. -/
theorem Batch.vouched (hsub : sub.Vouches) (hevolves : sub.Evolves) {build : Build (List Expr)}
    (b : Batch sub build μ) (hμ : v.Describes μ) (hb : build.Lists v Inventory.HasAll) :
    v.Stocks b.nodes b.start ∧ ∃ v', v.Grows v' ∧ v'.Describes b.stop ∧ v'.HasAll b.nodes ∧
      ∀ e ∈ b.nodes, e.Sound b.stop.context := by
  obtain ⟨v₁, hv₁, hstart, hall⟩ := hμ.build hb b.built
  obtain ⟨v₂, hv₂, hstop, hsound⟩ := b.writes.sound hsub hevolves hstart hall
  exact ⟨⟨v₁, hv₁, hstart, hall⟩, v₂, hv₁.trans hv₂, hstop, hall.grow hv₂, hsound⟩

theorem JoinsRun.vouched (hsub : sub.Vouches) (hevolves : sub.Evolves) {joins : List JoinTerm}
    {row row' : Row} {keys : List (List Expr × Moment)} {sqls : List Sql.Join}
    (h : JoinsRun sub scope joins row μ keys sqls row' ν) (hμ : v.Describes μ)
    (hs : v.HasAll (Scope.leaves scope)) (hr : v.HasAll row.leaves) :
    (∀ p ∈ keys, v.Stocks p.1 p.2) ∧
      ∃ v', v.Grows v' ∧ v'.Describes ν ∧ v'.HasAll row'.leaves := by
  induction h generalizing v with
  | nil => exact ⟨List.forall_mem_nil _, v, .refl v, hμ, hr⟩
  | @cons join _ row _ inner _ _ _ _ _ _ _ _ _ _ outerKey innerKey htable _ _ hpaired _ ih =>
      obtain ⟨v₁, hv₁, hκ, hinner⟩ := hμ.table htable
      have hs₁ := hs.grow hv₁
      have hr₁ := hr.grow hv₁
      obtain ⟨houter, v₂, hv₂, hstop₂, -, -⟩ := outerKey.vouched hsub hevolves hκ
        (ExprTerm.nodesOn_lists _ hs₁ hr₁)
      obtain ⟨hkey, v₃, hv₃, hstop₃, -, -⟩ := innerKey.vouched hsub hevolves hstop₂
        (ExprTerm.nodesOn_lists _ (hs₁.grow hv₂) (hinner.grow hv₂))
      have hscope : v₃.HasAll (Scope.leaves (.joined row inner :: scope)) :=
        ((hr₁.append hinner).append hs₁).grow (hv₂.trans hv₃)
      obtain ⟨v₄, hv₄, hξ, hrow⟩ := hstop₃.build (join.result.eval_lists hscope) hpaired
      obtain ⟨hkeys, v₅, hv₅, hν, hrow'⟩ := ih hξ (hs₁.grow (hv₂.trans (hv₃.trans hv₄))) hrow
      have hgrows := hv₁.trans (hv₂.trans (hv₃.trans hv₄))
      refine ⟨?_, v₅, hgrows.trans hv₅, hν, hrow'⟩
      rw [List.forall_mem_cons, List.forall_mem_cons]
      exact ⟨houter.of_grows hv₁, hkey.of_grows (hv₁.trans hv₂),
        fun p hp => (hkeys p hp).of_grows hgrows⟩

/-! ## Statements -/

/-- If the row that a statement reads is made of nodes of the inventory, so are the expressions of
all its clauses, and what it leaves is vouched for. -/
theorem StatementRun.vouched (hsub : sub.Vouches) (hevolves : sub.Evolves) {block : Block}
    (run : StatementRun sub scope block μ) (hopened : v.Describes run.opened)
    (hs : v.HasAll (Scope.leaves scope)) (hr : v.HasAll run.row.leaves) :
    (∀ p ∈ run.expressions, v.Stocks p.1 p.2) ∧
      ∃ v', v.Grows v' ∧ v'.Describes run.stop ∧ run.compiled.Vouched v' run.stop := by
  obtain ⟨hjoins, v₁, hv₁, hjoined, hr₁⟩ := run.joins_run.vouched hsub hevolves hopened hs hr
  have hs₁ := hs.grow hv₁
  obtain ⟨hfilter, v₂, hv₂, hstop₂, -, -⟩ := run.filter.vouched hsub hevolves hjoined
    (ExprTerm.nodesOn_lists _ hs₁ hr₁)
  have hs₂ := hs₁.grow hv₂
  have hr₂ := hr₁.grow hv₂
  obtain ⟨hkeys, v₃, hv₃, hstop₃, hk₃, -⟩ := run.keys.vouched hsub hevolves hstop₂
    (Grouping.nodesOn_lists _ hs₂ hr₂)
  have hs₃ := hs₂.grow hv₃
  have hr₃ := hr₂.grow hv₃
  obtain ⟨hhaving, v₄, hv₄, hstop₄, -, -⟩ := run.having.vouched hsub hevolves hstop₃
    (ExprTerm.nodesOn_lists _ hs₃ hr₃)
  have hs₄ := hs₃.grow hv₄
  have hr₄ := (Grouping.hasAll_behind block.clauses.grouping hk₃ hr₃).grow hv₄
  obtain ⟨horder, v₅, hv₅, hstop₅, -, -⟩ := run.order.vouched hsub hevolves hstop₄
    (ExprTerm.evalAll_lists _ (hr₄.append hs₄))
  obtain ⟨v₆, hv₆, hstart₆, hrow⟩ := hstop₅.build
    (RowTerm.runStages_lists block.stages (hs₄.grow hv₅) (hr₄.grow hv₅)) run.row_takes
  have hnodes : v₆.HasAll run.outputs.nodes := by
    rw [run.nodes_eq]
    exact hrow.subset run.compiled.row.flatten_subset
  obtain ⟨v₇, hv₇, hstop₇, hsound⟩ := run.outputs.writes.sound hsub hevolves hstart₆ hnodes
  have h₁₂ := hv₁.trans hv₂
  have h₁₃ := h₁₂.trans hv₃
  have h₁₄ := h₁₃.trans hv₄
  have h₁₅ := h₁₄.trans hv₅
  refine ⟨?_, v₇, (h₁₅.trans hv₆).trans hv₇,
    hstop₇.still (congrArg Context.aliases run.stop_eq) run.supply_eq, hrow.grow hv₇, ?_⟩
  · rw [SelectRun.expressions, List.forall_mem_append]
    refine ⟨hjoins, ?_⟩
    simp only [List.forall_mem_cons]
    exact ⟨hfilter.of_grows hv₁, hkeys.of_grows h₁₂, hhaving.of_grows h₁₃, horder.of_grows h₁₄,
      ⟨v₆, h₁₅.trans hv₆, hstart₆, hnodes⟩, List.forall_mem_nil _⟩
  · intro f hf
    have hmem : f.expr ∈ run.outputs.nodes := run.fields_eq ▸ List.mem_map_of_mem hf
    rw [run.stop_eq]
    exact ⟨hv₇ (hnodes _ hmem), hsound _ hmem⟩

mutual

/-- A block over nodes of the inventory leaves a statement that is vouched for. -/
theorem Block.vouched (hsub : sub.Vouches) (hevolves : sub.Evolves) : ∀ (block : Block)
    {μ ν : Moment} {compiled : Compiled} {v : Inventory},
    (block.compile sub scope).Takes μ compiled ν → v.Describes μ → v.HasAll (Scope.leaves scope) →
      ∃ v', v.Grows v' ∧ v'.Describes ν ∧ compiled.Vouched v' ν
  | .mk _ _ base _ _, _, _, _, _, h, hμ, hs => by
      obtain ⟨run, rfl, rfl⟩ := exists_statementRun h
      obtain ⟨v₁, hv₁, hopened, hr⟩ :=
        Base.vouched hsub hevolves base run.base_takes (hμ.report run.entered_takes) hs
      obtain ⟨-, v₂, hv₂, hstop, hcompiled⟩ := run.vouched hsub hevolves hopened (hs.grow hv₁) hr
      exact ⟨v₂, hv₁.trans hv₂, hstop, hcompiled⟩

theorem Base.vouched (hsub : sub.Vouches) (hevolves : sub.Evolves) : ∀ (base : Base) {μ ν : Moment}
    {r : Sql.Source × Row} {v : Inventory}, (base.compile sub scope).Takes μ r ν → v.Describes μ →
      v.HasAll (Scope.leaves scope) →
      ∃ v', v.Grows v' ∧ v'.Describes ν ∧ v'.HasAll r.2.leaves
  | .table _, _, _, _, _, h, hμ, _ => hμ.table h
  | .derived block, _, _, _, _, h, hμ, hs => by
      obtain ⟨inner, κ, hinner, hderived⟩ := takes_bind.1 h
      obtain ⟨ξ, hblock, haliases, hsession⟩ := hinner.exists_indented
      obtain ⟨v', hv', hξ, hrow, hfields⟩ :=
        Block.vouched hsub hevolves block hblock (hμ.deeper 1) hs
      have hκ := hξ.still haliases.symm (congrArg Session.supply hsession.symm)
      have hvouched : inner.Vouched v' κ := ⟨hrow, fun f hf => ⟨(hfields f hf).1, ?_⟩⟩
      · exact ⟨v', hv', hκ.derived hvouched hderived⟩
      · refine (hfields f hf).2.mono fun id hid => ?_
        rw [Context.Registered, ← haliases]
        exact hid
  | .strayHaving _, _, _, _, _, h, _, _ => (takes_throw.1 h).elim

end

end

/-- Subqueries are vouched for, however deep they are nested. -/
theorem compileWithin_vouches : ∀ depth : Nat, (compileWithin depth).Vouches
  | 0 => fun _ _ _ _ _ _ _ _ h => (takes_throw.1 h).elim
  | depth + 1 => by
      intro q scope v μ select ν hs hμ h
      obtain ⟨compiled, hcompiled, -⟩ := takes_compileWithin_succ.1 h
      obtain ⟨block, -, hblock⟩ := Query.takes_compile.1 hcompiled
      obtain ⟨v', hv', hν, -⟩ := block.vouched (compileWithin_vouches depth)
        (compileWithin_evolves depth) hblock hμ hs
      exact ⟨v', hv', hν⟩

end QueryCompiler
