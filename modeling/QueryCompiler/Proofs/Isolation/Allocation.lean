import QueryCompiler.Proofs.Leaves
import QueryCompiler.Proofs.Likeness.Identities

/-! # `QueryCompiler.Proofs.Isolation.Allocation` — where identities come from

An identity is allocated if it was there before, or if the supply has handed it out.  The supply
never goes back and never changes its list, so an allocated identity stays one.

    nodes of Γ are allocated in s
    ----------------------------------------------------------
    what t builds in Γ, from s to s', is allocated in s'

With everything there before, the rule has no premise: it then says that building moves the supply
on, whatever the scope.
-/

namespace QueryCompiler

/-! ## Supplies -/

/-- The second supply has the same list and is at least as far on. -/
structure Supply.Precedes (s s' : Supply) : Prop where
  ids_eq : s'.ids = s.ids
  used_le : s.used ≤ s'.used

theorem Supply.Precedes.refl (s : Supply) : s.Precedes s := ⟨rfl, Nat.le_refl _⟩

theorem Supply.Precedes.trans {s s' s'' : Supply} (h : s.Precedes s') (h' : s'.Precedes s'') :
    s.Precedes s'' :=
  ⟨h'.ids_eq.trans h.ids_eq, Nat.le_trans h.used_le h'.used_le⟩

section

variable (old : NodeId → Prop)

/-- The identity was there before, or has been handed out. -/
def Supply.Allocated (s : Supply) (id : NodeId) : Prop := old id ∨ ∃ n < s.used, s.ids n = id

/-- All identities in the expressions are allocated. -/
def Supply.Holds (s : Supply) (es : List Expr) : Prop :=
  ∀ e ∈ es, ∀ id ∈ e.ids, s.Allocated old id

end

variable {old : NodeId → Prop} {s s' : Supply} {es es' : List Expr} {e : Expr}

theorem Supply.Allocated.later {id : NodeId} (h : s.Allocated old id) (hs : s.Precedes s') :
    s'.Allocated old id := by
  rcases h with h | ⟨n, hn, rfl⟩
  · exact .inl h
  · exact .inr ⟨n, Nat.lt_of_lt_of_le hn hs.used_le, congrFun hs.ids_eq n⟩

namespace Supply.Holds

theorem nil : s.Holds old [] := List.forall_mem_nil _

theorem cons (h : ∀ id ∈ e.ids, s.Allocated old id) (hs : s.Holds old es) : s.Holds old (e :: es) :=
  List.forall_mem_cons.2 ⟨h, hs⟩

theorem append (h : s.Holds old es) (h' : s.Holds old es') : s.Holds old (es ++ es') :=
  List.forall_mem_append.2 ⟨h, h'⟩

theorem subset (h : s.Holds old es) (hes : es' ⊆ es) : s.Holds old es' := fun e he => h e (hes he)

theorem later (h : s.Holds old es) (hs : s.Precedes s') : s'.Holds old es :=
  fun e he id hid => (h e he id hid).later hs

theorem head (h : s.Holds old [e]) : ∀ id ∈ e.ids, s.Allocated old id := h e List.mem_cons_self

end Supply.Holds

/-! ## The identities in expressions and scopes -/

theorem Expr.mem_idsAll {id : NodeId} (es : List Expr) :
    id ∈ Expr.idsAll es ↔ ∃ e ∈ es, id ∈ e.ids := by
  induction es with
  | nil => simp [Expr.idsAll]
  | cons e es ih => simp [Expr.idsAll, ih]

mutual

theorem Row.mem_ids {id : NodeId} : ∀ row : Row, id ∈ row.ids ↔ ∃ e ∈ row.leaves, id ∈ e.ids
  | .expr e => by simp [Row.ids, Row.leaves]
  | .tuple rows => Row.mem_idsAll rows
  | .table _ columns => Expr.mem_idsAll columns
  | .group key source => by
      simp only [Row.ids, Row.leaves, List.mem_append, or_and_right, exists_or, key.mem_ids,
        source.mem_ids]
  | .absent => by simp [Row.ids, Row.leaves]

theorem Row.mem_idsAll {id : NodeId} : ∀ rows : List Row,
    id ∈ Row.idsAll rows ↔ ∃ e ∈ Row.leavesAll rows, id ∈ e.ids
  | [] => by simp [Row.idsAll, Row.leavesAll]
  | row :: rows => by
      simp only [Row.idsAll, Row.leavesAll, List.mem_append, or_and_right, exists_or, row.mem_ids,
        Row.mem_idsAll rows]

end

theorem Entry.mem_ids {id : NodeId} (entry : Entry) :
    id ∈ entry.ids ↔ ∃ e ∈ entry.leaves, id ∈ e.ids := by
  cases entry with
  | named _ row | clause row => exact row.mem_ids
  | joined outer inner =>
      simp only [Entry.ids, Entry.leaves, List.mem_append, or_and_right, exists_or, Row.mem_ids]

theorem Scope.mem_ids {id : NodeId} : ∀ scope : Scope,
    id ∈ scope.ids ↔ ∃ e ∈ Scope.leaves scope, id ∈ e.ids
  | [] => by simp [Scope.ids, Scope.leaves, Entry.idsAll]
  | entry :: scope => by
      have ih : id ∈ Entry.idsAll scope ↔ ∃ e ∈ Scope.leaves scope, id ∈ e.ids :=
        Scope.mem_ids scope
      rw [Scope.leaves] at ih
      simp only [Scope.ids, Scope.leaves, Entry.idsAll, List.flatMap_cons, List.mem_append,
        or_and_right, exists_or, entry.mem_ids, ih]

theorem Supply.holds_leaves {scope : Scope} :
    s.Holds old (Scope.leaves scope) ↔ ∀ id ∈ scope.ids, s.Allocated old id :=
  ⟨fun h id hid => by
      obtain ⟨e, he, hid⟩ := (Scope.mem_ids scope).1 hid
      exact h e he id hid,
    fun h e he id hid => h id ((Scope.mem_ids scope).2 ⟨e, he, hid⟩)⟩

/-! ## Building nodes -/

variable {α β : Type} {leaves : α → List Expr} {leaves' : β → List Expr}

/-- The computation moves the supply on, and the expressions in its result are allocated then. -/
def Build.Draws (old : NodeId → Prop) (s : Supply) (leaves : α → List Expr) (b : Build α) : Prop :=
  s.Precedes (b s).2 ∧ (b s).2.Holds old (leaves (b s).1)

/-- The computation moves every supply on. -/
def Build.Onward (b : Build α) : Prop := ∀ s : Supply, s.Precedes (b s).2

theorem Build.Onward.of_draws {b : Build α} (h : ∀ s, b.Draws (fun _ => True) s leaves) : b.Onward :=
  fun s => (h s).1

/-- If all were there before, all are allocated. -/
theorem Supply.holds_anything (s : Supply) (es : List Expr) : s.Holds (fun _ => True) es :=
  fun _ _ _ _ => .inl trivial

namespace Build.Draws

theorem pure {a : α} (h : s.Holds old (leaves a)) : Build.Draws old s leaves (pure a) :=
  ⟨.refl s, h⟩

theorem bind {b : Build α} {f : α → Build β} (hb : b.Draws old s leaves)
    (hf : ∀ a s', s.Precedes s' → s'.Holds old (leaves a) → (f a).Draws old s' leaves') :
    Build.Draws old s leaves' (b >>= f) := by
  obtain ⟨hprec, hholds⟩ := hf _ _ hb.1 hb.2
  exact ⟨hb.1.trans hprec, hholds⟩

/-- A new node over parts that are allocated. -/
theorem node {make : NodeId → Expr} {parts : List NodeId} (hids : ∀ id, (make id).ids = id :: parts)
    (hparts : ∀ id ∈ parts, s.Allocated old id) :
    Build.Draws old s (fun e => [e]) (Build.node make) := by
  have hprec : s.Precedes ⟨s.ids, s.used + 1⟩ := ⟨rfl, Nat.le_succ _⟩
  refine ⟨hprec, .cons (fun id hid => ?_) .nil⟩
  have hid : id ∈ (make (s.ids s.used)).ids := hid
  rw [hids] at hid
  rcases List.mem_cons.1 hid with rfl | hid
  · exact .inr ⟨s.used, Nat.lt_succ_self _, rfl⟩
  · exact (hparts id hid).later hprec

theorem leaf {make : NodeId → Expr} (hids : ∀ id, (make id).ids = [id]) :
    Build.Draws old s (fun e => [e]) (Build.node make) :=
  .node hids (List.forall_mem_nil _)

theorem orUnknown {found : Option Expr} (h : ∀ e ∈ found, ∀ id ∈ e.ids, s.Allocated old id)
    (name : String) : Build.Draws old s (fun e => [e]) (Row.orUnknown found name) := by
  cases found with
  | none => exact .leaf fun _ => rfl
  | some e => exact .pure (.cons (h e rfl) .nil)

/-- A node over what two computations build, one after the other. -/
theorem node_of_two {first second : Build Expr} {make : NodeId → Expr → Expr → Expr}
    (h₁ : first.Draws old s fun e => [e])
    (h₂ : ∀ s', s.Precedes s' → second.Draws old s' fun e => [e])
    (hids : ∀ id a b, (make id a b).ids = id :: (a.ids ++ b.ids)) :
    Build.Draws old s (fun e => [e]) (do
      let a ← first
      let b ← second
      Build.node fun id => make id a b) := by
  refine h₁.bind fun a s₁ hs₁ ha => (h₂ s₁ hs₁).bind fun b s₂ hs₂ hb => ?_
  exact .node (fun id => hids id a b) (List.forall_mem_append.2 ⟨(ha.later hs₂).head, hb.head⟩)

end Build.Draws

theorem Table.columnNodes_draws (table : String) : ∀ (columns : List String) {s : Supply},
    Build.Draws old s (fun es => es) (Table.columnNodes table columns)
  | [], _ => .pure .nil
  | name :: columns, s => by
      have hnode : Build.Draws old s (fun e => [e]) (Build.node fun id => .column id table name) :=
        .leaf fun _ => rfl
      refine hnode.bind fun e s₁ _ he => ?_
      refine (columnNodes_draws table columns).bind fun es s₂ hs₂ hes => .pure ?_
      exact .cons (he.later hs₂).head hes

mutual

/-- Over allocated nodes a term builds an allocated node. -/
theorem ExprTerm.eval_draws : ∀ (t : ExprTerm) {s : Supply} {scope : Scope},
    s.Holds old (Scope.leaves scope) → Build.Draws old s (fun e => [e]) (t.eval scope)
  | .literal _, _, _, _ | .null, _, _, _ | .column .., _, _, _ | .parameter _, _, _, _
  | .countStar, _, _, _ => .leaf fun _ => rfl
  | .named row _, _, _, hs => (row.eval_draws hs).bind fun _ _ _ hr =>
      .orUnknown (fun e he => hr e (Row.mem_of_find? he)) _
  | .qualified row _ _, _, _, hs => (row.eval_draws hs).bind fun _ _ _ hr =>
      .orUnknown (fun e he => hr e (Row.mem_of_find? he)) _
  | .field row _, _, _, hs => (row.eval_draws hs).bind fun r _ _ hr =>
      .orUnknown (fun e he => hr e (r.flatten_subset (List.mem_of_getElem? he))) _
  | .unary _ operand, _, _, hs => (operand.eval_draws hs).bind fun _ _ _ ho =>
      .node (fun _ => rfl) ho.head
  | .aggregate _ _ operand, _, _, hs => (operand.eval_draws hs).bind fun _ _ _ ho =>
      .node (fun _ => rfl) ho.head
  | .binary _ left right, _, _, hs => .node_of_two (left.eval_draws hs)
      (fun _ h => right.eval_draws (hs.later h)) fun _ _ _ => rfl
  | .compare _ left right, _, _, hs => .node_of_two (left.eval_draws hs)
      (fun _ h => right.eval_draws (hs.later h)) fun _ _ _ => rfl
  | .like left right, _, _, hs => .node_of_two (left.eval_draws hs)
      (fun _ h => right.eval_draws (hs.later h)) fun _ _ _ => rfl
  | .case condition positive negative, _, _, hs => by
      refine (condition.eval_draws hs).bind fun c s₁ h₁ hc => ?_
      refine (positive.eval_draws (hs.later h₁)).bind fun p s₂ h₂ hp => ?_
      refine (negative.eval_draws ((hs.later h₁).later h₂)).bind fun n s₃ h₃ hn => ?_
      refine .node (fun _ => rfl) (List.forall_mem_append.2 ⟨((hc.later h₂).later h₃).head, ?_⟩)
      exact List.forall_mem_append.2 ⟨(hp.later h₃).head, hn.head⟩
  | .inList needle values, _, _, hs => by
      refine (needle.eval_draws hs).bind fun n s₁ h₁ hn => ?_
      refine (ExprTerm.evalAll_draws values (hs.later h₁)).bind fun vs s₂ h₂ hvs => ?_
      refine .node (fun _ => rfl) (List.forall_mem_append.2 ⟨(hn.later h₂).head, fun id hid => ?_⟩)
      obtain ⟨e, he, hid⟩ := (Expr.mem_idsAll vs).1 hid
      exact hvs e he id hid
  | .inQuery needle _, _, _, hs => (needle.eval_draws hs).bind fun _ _ h hn =>
      .node (fun _ => rfl)
        (List.forall_mem_append.2 ⟨hn.head, Supply.holds_leaves.1 (hs.later h)⟩)
  | .over row body, _, _, hs => (row.eval_draws hs).bind fun _ _ h hr =>
      body.eval_draws (hr.append (hs.later h))

theorem ExprTerm.evalAll_draws : ∀ (ts : List ExprTerm) {s : Supply} {scope : Scope},
    s.Holds old (Scope.leaves scope) → Build.Draws old s (fun es => es) (ExprTerm.evalAll ts scope)
  | [], _, _, _ => .pure .nil
  | t :: ts, _, _, hs => by
      refine (t.eval_draws hs).bind fun e s₁ h₁ he => ?_
      refine (ExprTerm.evalAll_draws ts (hs.later h₁)).bind fun es s₂ h₂ hes => .pure ?_
      exact .cons (he.later h₂).head hes

/-- The same for the expressions of a row. -/
theorem RowTerm.eval_draws : ∀ (t : RowTerm) {s : Supply} {scope : Scope},
    s.Holds old (Scope.leaves scope) → Build.Draws old s Row.leaves (t.eval scope)
  | .slot up slot, _, scope, hs => .pure (hs.subset (Scope.slot_subset scope up slot))
  | .absent, _, _, _ => .pure .nil
  | .tuple rows, _, _, hs => (RowTerm.evalAll_draws rows hs).bind fun _ _ _ hr => .pure hr
  | .item row index, _, _, hs => (row.eval_draws hs).bind fun r _ _ hr =>
      .pure (hr.subset (r.item_subset index))
  | .key row, _, _, hs => (row.eval_draws hs).bind fun r _ _ hr => .pure (hr.subset r.key_subset)
  | .source row, _, _, hs => (row.eval_draws hs).bind fun r _ _ hr =>
      .pure (hr.subset r.source_subset)
  | .group key source, _, _, hs => (key.eval_draws hs).bind fun _ _ h hk =>
      (source.eval_draws (hs.later h)).bind fun _ _ h' hr => .pure ((hk.later h').append hr)
  | .table t, _, _, _ => (Table.columnNodes_draws t.name t.columns).bind fun _ _ _ hc => .pure hc
  | .get name, _, scope, hs => .pure (hs.subset (Scope.get_subset scope name))
  | .bind _ value body, _, _, hs => (value.eval_draws hs).bind fun _ _ h hr =>
      body.eval_draws (hr.append (hs.later h))
  | .expr e, _, _, hs => (e.eval_draws hs).bind fun _ _ _ he => .pure he

theorem RowTerm.evalAll_draws : ∀ (ts : List RowTerm) {s : Supply} {scope : Scope},
    s.Holds old (Scope.leaves scope) →
      Build.Draws old s Row.leavesAll (RowTerm.evalAll ts scope)
  | [], _, _, _ => .pure .nil
  | t :: ts, _, _, hs => by
      refine (t.eval_draws hs).bind fun row s₁ h₁ hr => ?_
      refine (RowTerm.evalAll_draws ts (hs.later h₁)).bind fun rows s₂ h₂ hrs => .pure ?_
      exact (hr.later h₂).append hrs

end

theorem RowTerm.runStages_draws {scope : Scope} : ∀ (stages : List RowTerm) {s : Supply} {row : Row},
    s.Holds old (Scope.leaves scope) → s.Holds old row.leaves →
      Build.Draws old s Row.leaves (RowTerm.runStages scope stages row)
  | [], _, _, _, hr => .pure hr
  | stage :: stages, _, _, hs, hr => by
      refine (stage.eval_draws (hr.append hs)).bind fun row s₁ h₁ hr₁ => ?_
      exact runStages_draws stages (hs.later h₁) hr₁

theorem Assigned.build_draws {scope : Scope} {row : Row} (value : Assigned)
    (hs : s.Holds old (Scope.leaves scope)) (hr : s.Holds old row.leaves)
    (hvalue : ∀ id ∈ value.ids, s.Allocated old id) :
    Build.Draws old s (fun e => [e]) (value.build scope row) := by
  cases value with
  | computed term => exact term.eval_draws (hr.append hs)
  | fixed e => exact .pure (.cons hvalue .nil)

end QueryCompiler
