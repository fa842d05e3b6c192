import QueryCompiler.Proofs.Leaves
import QueryCompiler.Proofs.Likeness.Exprs
import QueryCompiler.Proofs.Scoping.Reads

/-! # `QueryCompiler.Proofs.Lookups.Inventory` — an identity belongs to one node

The table of aliases knows a node by its identity alone.  That it may stand for the node, with all
that is inside it, is due to how nodes come about: each is built once, under an identity of its own,
and from then on it is shared but never changed.

An inventory holds the nodes that there are.  No two of them have the same identity, and none has one
that is still to be handed out.  Along with a node it has the operands and, if the node is a
subquery, all nodes within reach of its terms.

    nodes of Γ are in v
    ------------------------------------------------
    what t builds in Γ is in an inventory above v
-/

namespace QueryCompiler

/-! ## Parts of nodes -/

/-- The expressions within reach of a subquery's terms. -/
def Expr.captured : Expr → List Expr
  | .inQuery _ _ _ scope => Scope.leaves scope
  | _ => []

/-- The node stands in the expression, at whatever depth. -/
inductive Expr.Contains : Expr → Expr → Prop
  | refl {e} : Contains e e
  | child {e c n} : c ∈ e.children → Contains c n → Contains e n

theorem Expr.Contains.trans {e n o : Expr} (h : e.Contains n) (h' : n.Contains o) :
    e.Contains o := by
  induction h with
  | refl => exact h'
  | child hc _ ih => exact .child hc (ih h')

/-! ## Inventories -/

/-- Nodes, each known by its identity, and the supply that the next ones get theirs from. -/
structure Inventory where
  has : Expr → Prop
  supply : Supply
  unique : ∀ {e e'}, has e → has e' → e.id = e'.id → e = e'
  parts : ∀ {e}, has e → ∀ o ∈ e.children ++ e.captured, has o
  injective : Function.Injective supply.upcoming
  fresh : ∀ {e}, has e → ∀ n, supply.upcoming n ≠ e.id

namespace Inventory

variable {v v' v'' : Inventory}

def HasAll (v : Inventory) (es : List Expr) : Prop := ∀ e ∈ es, v.has e

/-- What is in the first is in the second. -/
def Grows (v v' : Inventory) : Prop := ∀ ⦃e : Expr⦄, v.has e → v'.has e

theorem Grows.refl (v : Inventory) : v.Grows v := fun _ h => h

theorem Grows.trans (h : v.Grows v') (h' : v'.Grows v'') : v.Grows v'' := fun _ he => h' (h he)

theorem HasAll.grow {es : List Expr} (h : v.HasAll es) (hv : v.Grows v') : v'.HasAll es :=
  fun e he => hv (h e he)

theorem HasAll.subset {es es' : List Expr} (h : v.HasAll es) (hes : es' ⊆ es) : v.HasAll es' :=
  fun e he => h e (hes he)

theorem HasAll.append {es es' : List Expr} (h : v.HasAll es) (h' : v.HasAll es') :
    v.HasAll (es ++ es') :=
  List.forall_mem_append.2 ⟨h, h'⟩

theorem HasAll.cons {e : Expr} {es : List Expr} (h : v.has e) (h' : v.HasAll es) :
    v.HasAll (e :: es) :=
  List.forall_mem_cons.2 ⟨h, h'⟩

theorem HasAll.nil : v.HasAll [] := List.forall_mem_nil _

theorem hasAll_children {e : Expr} (h : v.has e) : v.HasAll e.children := fun o ho =>
  v.parts h o (List.mem_append_left _ ho)

theorem hasAll_captured {e : Expr} (h : v.has e) : v.HasAll e.captured := fun o ho =>
  v.parts h o (List.mem_append_right _ ho)

def empty (supply : Supply) (h : Function.Injective supply.upcoming) : Inventory where
  has _ := False
  supply := supply
  unique h := h.elim
  parts h := h.elim
  injective := h
  fresh h := h.elim

def add (v : Inventory) (e : Expr) (hid : e.id = v.supply.upcoming 0)
    (hparts : v.HasAll (e.children ++ e.captured)) : Inventory where
  has n := v.has n ∨ n = e
  supply := ⟨v.supply.ids, v.supply.used + 1⟩
  unique := by
    rintro n n' (hn | rfl) (hn' | rfl) heq
    · exact v.unique hn hn' heq
    · exact absurd (hid.symm.trans heq.symm) (v.fresh hn 0)
    · exact absurd (hid.symm.trans heq) (v.fresh hn' 0)
    · rfl
  parts := by
    rintro n (hn | rfl) o ho
    · exact .inl (v.parts hn o ho)
    · exact .inl (hparts o ho)
  injective m n h := by
    rw [Supply.upcoming_next, Supply.upcoming_next] at h
    exact Nat.succ.inj (v.injective h)
  fresh := by
    rintro n (hn | rfl) m
    · rw [Supply.upcoming_next]
      exact v.fresh hn (m + 1)
    · rw [Supply.upcoming_next, hid]
      exact fun h => absurd (v.injective h) (Nat.succ_ne_zero m)

end Inventory

/-! ## Building nodes -/

variable {α β : Type} {v : Inventory}

/-- From the inventory on, the computation comes to a larger one and a result with `Q`. -/
def Build.Lists (v : Inventory) (Q : Inventory → α → Prop) (b : Build α) : Prop :=
  ∃ v' : Inventory, v.Grows v' ∧ v'.supply = (b v.supply).2 ∧ Q v' (b v.supply).1

namespace Build.Lists

variable {Q : Inventory → α → Prop} {R : Inventory → β → Prop}

theorem pure {a : α} (h : Q v a) : Build.Lists v Q (pure a) := ⟨v, .refl v, rfl, h⟩

theorem bind {b : Build α} {f : α → Build β} (hb : Build.Lists v Q b)
    (hf : ∀ v' a, v.Grows v' → Q v' a → Build.Lists v' R (f a)) : Build.Lists v R (b >>= f) := by
  obtain ⟨v₁, hv₁, hsupply₁, hq⟩ := hb
  obtain ⟨v₂, hv₂, hsupply₂, hr⟩ := hf v₁ _ hv₁ hq
  rw [hsupply₁] at hsupply₂ hr
  exact ⟨v₂, hv₁.trans hv₂, hsupply₂, hr⟩

/-- A new node over parts that are there. -/
theorem node {make : NodeId → Expr} {parts : List Expr} (h : v.HasAll parts)
    (hid : ∀ id, (make id).id = id)
    (hparts : ∀ id, (make id).children ++ (make id).captured = parts) :
    Build.Lists v Inventory.has (Build.node make) := by
  have hnext : v.supply.upcoming 0 = v.supply.ids v.supply.used := by
    rw [Supply.upcoming, Nat.zero_add]
  refine ⟨v.add (make (v.supply.ids v.supply.used)) ?_ ?_, fun _ => .inl, rfl, .inr rfl⟩
  · rw [hid, hnext]
  · rw [hparts]
    exact h

end Build.Lists

/-! ## Evaluation -/

theorem Table.columnNodes_lists (table : String) : ∀ (columns : List String) {v : Inventory},
    Build.Lists v Inventory.HasAll (Table.columnNodes table columns)
  | [], _ => .pure .nil
  | _ :: columns, _ => by
      refine (Build.Lists.node .nil (fun _ => rfl) fun _ => rfl).bind fun v₁ e _ he => ?_
      refine (columnNodes_lists table columns).bind fun v₂ es hv₂ hes => .pure ?_
      exact .cons (hv₂ he) hes

theorem Row.orUnknown_lists {found : Option Expr} (h : ∀ e ∈ found, v.has e) (name : String) :
    Build.Lists v Inventory.has (Row.orUnknown found name) := by
  cases found with
  | none => exact .node .nil (fun _ => rfl) fun _ => rfl
  | some e => exact .pure (h e rfl)

/-- A node over what two computations build, one after the other. -/
theorem Build.Lists.node_of_two {first second : Build Expr} {make : NodeId → Expr → Expr → Expr}
    (h₁ : first.Lists v Inventory.has)
    (h₂ : ∀ v', v.Grows v' → second.Lists v' Inventory.has)
    (hmake : ∀ id a b, (make id a b).id = id ∧
      (make id a b).children ++ (make id a b).captured = [a, b]) :
    Build.Lists v Inventory.has (do
      let a ← first
      let b ← second
      Build.node fun id => make id a b) := by
  refine h₁.bind fun v₁ a hv₁ ha => (h₂ v₁ hv₁).bind fun v₂ b hv₂ hb => ?_
  exact .node (.cons (hv₂ ha) (.cons hb .nil)) (fun id => (hmake id a b).1)
    fun id => (hmake id a b).2

mutual

/-- Over nodes that are there, a term builds one that is there from then on. -/
theorem ExprTerm.eval_lists : ∀ (t : ExprTerm) {v : Inventory} {scope : Scope},
    v.HasAll (Scope.leaves scope) → Build.Lists v Inventory.has (t.eval scope)
  | .literal _, _, _, _ | .null, _, _, _ | .column .., _, _, _ | .parameter _, _, _, _
  | .countStar, _, _, _ => .node .nil (fun _ => rfl) fun _ => rfl
  | .named row _, _, _, hs => (row.eval_lists hs).bind fun _ _ _ hr =>
      Row.orUnknown_lists (fun e he => hr e (Row.mem_of_find? he)) _
  | .qualified row _ _, _, _, hs => (row.eval_lists hs).bind fun _ _ _ hr =>
      Row.orUnknown_lists (fun e he => hr e (Row.mem_of_find? he)) _
  | .field row _, _, _, hs => (row.eval_lists hs).bind fun _ r _ hr =>
      Row.orUnknown_lists (fun e he => hr e (r.flatten_subset (List.mem_of_getElem? he))) _
  | .unary _ operand, _, _, hs => (operand.eval_lists hs).bind fun _ _ _ ho =>
      .node (.cons ho .nil) (fun _ => rfl) fun _ => rfl
  | .aggregate _ _ operand, _, _, hs => (operand.eval_lists hs).bind fun _ _ _ ho =>
      .node (.cons ho .nil) (fun _ => rfl) fun _ => rfl
  | .binary _ left right, _, _, hs => .node_of_two (left.eval_lists hs)
      (fun _ hv => right.eval_lists (hs.grow hv)) fun _ _ _ => ⟨rfl, rfl⟩
  | .compare _ left right, _, _, hs => .node_of_two (left.eval_lists hs)
      (fun _ hv => right.eval_lists (hs.grow hv)) fun _ _ _ => ⟨rfl, rfl⟩
  | .like left right, _, _, hs => .node_of_two (left.eval_lists hs)
      (fun _ hv => right.eval_lists (hs.grow hv)) fun _ _ _ => ⟨rfl, rfl⟩
  | .case condition positive negative, _, _, hs => by
      refine (condition.eval_lists hs).bind fun v₁ c hv₁ hc => ?_
      refine (positive.eval_lists (hs.grow hv₁)).bind fun v₂ p hv₂ hp => ?_
      refine (negative.eval_lists ((hs.grow hv₁).grow hv₂)).bind fun v₃ n hv₃ hn => ?_
      exact .node (.cons (hv₃ (hv₂ hc)) (.cons (hv₃ hp) (.cons hn .nil))) (fun _ => rfl) fun _ => rfl
  | .inList needle values, _, _, hs => by
      refine (needle.eval_lists hs).bind fun v₁ n hv₁ hn => ?_
      refine (ExprTerm.evalAll_lists values (hs.grow hv₁)).bind fun v₂ vs hv₂ hvs => ?_
      exact .node (.cons (hv₂ hn) hvs) (fun _ => rfl) fun _ => List.append_nil _
  | .inQuery needle _, _, _, hs => (needle.eval_lists hs).bind fun _ _ hv hn =>
      .node (.cons hn (hs.grow hv)) (fun _ => rfl) fun _ => rfl
  | .over row body, _, _, hs => (row.eval_lists hs).bind fun _ _ hv hr =>
      body.eval_lists (hr.append (hs.grow hv))

theorem ExprTerm.evalAll_lists : ∀ (ts : List ExprTerm) {v : Inventory} {scope : Scope},
    v.HasAll (Scope.leaves scope) → Build.Lists v Inventory.HasAll (ExprTerm.evalAll ts scope)
  | [], _, _, _ => .pure .nil
  | t :: ts, _, _, hs => by
      refine (t.eval_lists hs).bind fun v₁ e hv₁ he => ?_
      refine (ExprTerm.evalAll_lists ts (hs.grow hv₁)).bind fun v₂ es hv₂ hes => .pure ?_
      exact .cons (hv₂ he) hes

/-- The same for the expressions of a row. -/
theorem RowTerm.eval_lists : ∀ (t : RowTerm) {v : Inventory} {scope : Scope},
    v.HasAll (Scope.leaves scope) →
      Build.Lists v (fun v' row => v'.HasAll row.leaves) (t.eval scope)
  | .slot up slot, _, scope, hs => .pure (hs.subset (Scope.slot_subset scope up slot))
  | .absent, _, _, _ => .pure .nil
  | .tuple rows, _, _, hs => (RowTerm.evalAll_lists rows hs).bind fun _ _ _ hr => .pure hr
  | .item row index, _, _, hs => (row.eval_lists hs).bind fun _ r _ hr =>
      .pure (hr.subset (r.item_subset index))
  | .key row, _, _, hs => (row.eval_lists hs).bind fun _ r _ hr => .pure (hr.subset r.key_subset)
  | .source row, _, _, hs => (row.eval_lists hs).bind fun _ r _ hr =>
      .pure (hr.subset r.source_subset)
  | .group key source, _, _, hs => (key.eval_lists hs).bind fun _ _ hv hk =>
      (source.eval_lists (hs.grow hv)).bind fun _ _ hv' hr => .pure ((hk.grow hv').append hr)
  | .table t, _, _, _ => (Table.columnNodes_lists t.name t.columns).bind fun _ _ _ hc => .pure hc
  | .get name, _, scope, hs => .pure (hs.subset (Scope.get_subset scope name))
  | .bind _ value body, _, _, hs => (value.eval_lists hs).bind fun _ _ hv hr =>
      body.eval_lists (hr.append (hs.grow hv))
  | .expr e, _, _, hs => (e.eval_lists hs).bind fun _ _ _ he => .pure (.cons he .nil)

theorem RowTerm.evalAll_lists : ∀ (ts : List RowTerm) {v : Inventory} {scope : Scope},
    v.HasAll (Scope.leaves scope) →
      Build.Lists v (fun v' rows => v'.HasAll (Row.leavesAll rows)) (RowTerm.evalAll ts scope)
  | [], _, _, _ => .pure .nil
  | t :: ts, _, _, hs => by
      refine (t.eval_lists hs).bind fun v₁ row hv₁ hr => ?_
      refine (RowTerm.evalAll_lists ts (hs.grow hv₁)).bind fun v₂ rows hv₂ hrs => .pure ?_
      exact (hr.grow hv₂).append hrs

end

theorem RowTerm.runStages_lists {scope : Scope} : ∀ (stages : List RowTerm) {v : Inventory}
    {row : Row}, v.HasAll (Scope.leaves scope) → v.HasAll row.leaves →
      Build.Lists v (fun v' row => v'.HasAll row.leaves) (RowTerm.runStages scope stages row)
  | [], _, _, _, hr => .pure hr
  | stage :: stages, _, _, hs, hr => by
      refine (stage.eval_lists (hr.append hs)).bind fun v₁ row hv₁ hr₁ => ?_
      exact runStages_lists stages (hs.grow hv₁) hr₁

end QueryCompiler
