import QueryCompiler.Clause.Subqueries
import QueryCompiler.Proofs.Building
import QueryCompiler.Proofs.ClauseRule
import QueryCompiler.Proofs.Forms
import QueryCompiler.Proofs.Leaves

/-! # `QueryCompiler.Proofs.Nesting` — how deep the subqueries go in what is built

The nesting of a row or a scope is the greatest nesting among its leaves.  Evaluating a term adds at
most the subqueries that are written in it:

    nesting of what t builds in Γ   ≤   subqueries t + nesting Γ

In particular a query without subqueries, over rows without subqueries, builds none.
-/

namespace QueryCompiler

variable {n : Nat}

/-! ## Rows and scopes -/

theorem Expr.nestingAll_le_iff : ∀ {es : List Expr},
    Expr.nestingAll es ≤ n ↔ ∀ e ∈ es, e.nesting ≤ n
  | [] => by simp [Expr.nestingAll]
  | e :: es => by
      rw [Expr.nestingAll, Nat.max_le, List.forall_mem_cons, Expr.nestingAll_le_iff]

/-- The operands that an expression writes nest no deeper than it. -/
theorem Expr.Assembles.nestingAll_le {e : Expr} {es : List Expr} {ts : List Sql.Scalar}
    {t : Sql.Scalar} (h : e.Assembles es ts t) : Expr.nestingAll es ≤ e.nesting := by
  cases h <;> simp only [Expr.nesting, Expr.nestingAll] <;> omega

mutual

theorem Row.nesting_le_iff : ∀ {row : Row}, row.nesting ≤ n ↔ ∀ e ∈ row.leaves, e.nesting ≤ n
  | .expr e => by simp [Row.nesting, Row.leaves]
  | .tuple rows => Row.nestingAll_le_iff
  | .table _ columns => Expr.nestingAll_le_iff
  | .group key source => by
      rw [Row.nesting, Row.leaves, Nat.max_le, List.forall_mem_append, Row.nesting_le_iff,
        Row.nesting_le_iff]
  | .absent => by simp [Row.nesting, Row.leaves]

theorem Row.nestingAll_le_iff : ∀ {rows : List Row},
    Row.nestingAll rows ≤ n ↔ ∀ e ∈ Row.leavesAll rows, e.nesting ≤ n
  | [] => by simp [Row.nestingAll, Row.leavesAll]
  | row :: rows => by
      rw [Row.nestingAll, Row.leavesAll, Nat.max_le, List.forall_mem_append, Row.nesting_le_iff,
        Row.nestingAll_le_iff]

end

theorem Entry.nesting_le_iff {entry : Entry} :
    entry.nesting ≤ n ↔ ∀ e ∈ entry.leaves, e.nesting ≤ n := by
  cases entry with
  | named _ row => exact Row.nesting_le_iff
  | clause row => exact Row.nesting_le_iff
  | joined outer inner =>
      rw [Entry.nesting, Entry.leaves, Nat.max_le, List.forall_mem_append, Row.nesting_le_iff,
        Row.nesting_le_iff]

theorem Scope.nesting_le_iff {scope : Scope} :
    scope.nesting ≤ n ↔ ∀ e ∈ scope.leaves, e.nesting ≤ n := by
  unfold Scope.nesting Scope.leaves
  induction scope with
  | nil => simp [Entry.nestingAll]
  | cons entry rest ih =>
      rw [Entry.nestingAll, Nat.max_le, List.flatMap_cons, List.forall_mem_append,
        Entry.nesting_le_iff, ih]

/-- What is found in a row nests no deeper than the row. -/
theorem Row.nesting_le_of_subset {row row' : Row} (h : row'.leaves ⊆ row.leaves)
    (hrow : row.nesting ≤ n) : row'.nesting ≤ n :=
  Row.nesting_le_iff.2 fun e he => Row.nesting_le_iff.1 hrow e (h he)

theorem Scope.nesting_cons_le (entry : Entry) {scope : Scope} (he : entry.nesting ≤ n)
    (hs : scope.nesting ≤ n) : Scope.nesting (entry :: scope) ≤ n :=
  Nat.max_le.2 ⟨he, hs⟩

/-- What is found in a scope nests no deeper than the scope. -/
theorem Scope.row_nesting_le {scope : Scope} {row : Row} (h : row.leaves ⊆ scope.leaves)
    (hs : scope.nesting ≤ n) : row.nesting ≤ n :=
  Row.nesting_le_iff.2 fun e he => Scope.nesting_le_iff.1 hs e (h he)

/-! ## Evaluation -/

theorem Row.orUnknown_nesting {found : Option Expr} (h : ∀ e ∈ found, e.nesting ≤ n)
    (name : String) : Build.Returns (fun e => e.nesting ≤ n) (Row.orUnknown found name) := by
  cases found with
  | none => exact .node fun _ => Nat.zero_le _
  | some e => exact .pure (h e rfl)

theorem Table.columnNodes_nesting (table : String) : ∀ names : List String,
    Build.Returns (fun columns => Expr.nestingAll columns ≤ n) (Table.columnNodes table names)
  | [] => .pure (Nat.zero_le _)
  | name :: names => by
      refine Build.Returns.bind (P := fun c => c.nesting ≤ n) (.node fun _ => Nat.zero_le _)
        fun c hc => ?_
      exact (Table.columnNodes_nesting table names).bind fun cs hcs =>
        .pure (Nat.max_le.2 ⟨hc, hcs⟩)

/-- The columns of a use of a table hold no subquery. -/
theorem Table.instantiate_nesting (t : Table) :
    Build.Returns (fun columns => (Row.table t columns).nesting ≤ n) t.instantiate :=
  Table.columnNodes_nesting t.name t.columns

mutual

theorem ExprTerm.eval_nesting : ∀ (t : ExprTerm) {scope : Scope} {n : Nat}, scope.nesting ≤ n →
    Build.Returns (fun e => e.nesting ≤ t.subqueries + n) (t.eval scope)
  | .literal _, _, _, _ | .null, _, _, _ | .column .., _, _, _ | .parameter _, _, _, _
  | .countStar, _, _, _ => .node fun _ => Nat.zero_le _
  | .named row name, _, _, hs => (RowTerm.eval_nesting row hs).bind fun _ hr =>
      Row.orUnknown_nesting (fun e he => Row.nesting_le_iff.1 hr e (Row.mem_of_find? he)) name
  | .qualified row table name, _, _, hs => (RowTerm.eval_nesting row hs).bind fun _ hr =>
      Row.orUnknown_nesting (fun e he => Row.nesting_le_iff.1 hr e (Row.mem_of_find? he)) _
  | .field row index, _, _, hs => (RowTerm.eval_nesting row hs).bind fun r hr =>
      Row.orUnknown_nesting (fun e he => Row.nesting_le_iff.1 hr e
        (r.flatten_subset (List.mem_of_getElem? he))) _
  | .binary _ left right, _, _, hs | .compare _ left right, _, _, hs | .like left right, _, _, hs =>
      (ExprTerm.eval_nesting left hs).bind fun _ hl =>
        (ExprTerm.eval_nesting right hs).bind fun _ hr => .node fun _ => by
          simp only [Expr.nesting, ExprTerm.subqueries]
          omega
  | .unary _ operand, _, _, hs | .aggregate _ _ operand, _, _, hs =>
      (ExprTerm.eval_nesting operand hs).bind fun _ ho => .node fun _ => ho
  | .case condition positive negative, _, _, hs =>
      (ExprTerm.eval_nesting condition hs).bind fun _ hc =>
        (ExprTerm.eval_nesting positive hs).bind fun _ hp =>
          (ExprTerm.eval_nesting negative hs).bind fun _ hn => .node fun _ => by
            simp only [Expr.nesting, ExprTerm.subqueries]
            omega
  | .inList needle values, _, _, hs =>
      (ExprTerm.eval_nesting needle hs).bind fun _ hn =>
        (ExprTerm.evalAll_nesting values hs).bind fun _ hv => .node fun _ => by
          simp only [Expr.nesting, ExprTerm.subqueries]
          omega
  | .inQuery needle query, scope, _, hs =>
      (ExprTerm.eval_nesting needle hs).bind fun _ hn => .node fun _ => by
        have hscope : Entry.nestingAll scope ≤ _ := hs
        simp only [Expr.nesting, ExprTerm.subqueries]
        omega
  | .over row body, _, _, hs =>
      (RowTerm.eval_nesting row hs).bind fun r hr s => by
        have hscope := Scope.nesting_cons_le (.clause r) hr (Nat.le_add_left_of_le hs)
        have hbody := ExprTerm.eval_nesting body hscope s
        simp only [ExprTerm.subqueries]
        omega

theorem ExprTerm.evalAll_nesting : ∀ (ts : List ExprTerm) {scope : Scope} {n : Nat},
    scope.nesting ≤ n →
      Build.Returns (fun es => Expr.nestingAll es ≤ ExprTerm.subqueriesAll ts + n)
        (ExprTerm.evalAll ts scope)
  | [], _, _, _ => .pure (Nat.zero_le _)
  | t :: ts, _, _, hs =>
      (ExprTerm.eval_nesting t hs).bind fun _ he =>
        (ExprTerm.evalAll_nesting ts hs).bind fun _ hes => .pure (by
          simp only [Expr.nestingAll, ExprTerm.subqueriesAll]
          omega)

theorem RowTerm.eval_nesting : ∀ (t : RowTerm) {scope : Scope} {n : Nat}, scope.nesting ≤ n →
    Build.Returns (fun row => row.nesting ≤ t.subqueries + n) (t.eval scope)
  | .slot up slot, scope, _, hs =>
      .pure (Nat.le_add_left_of_le (Scope.row_nesting_le (Scope.slot_subset scope up slot) hs))
  | .absent, _, _, _ => .pure (Nat.zero_le _)
  | .get name, scope, _, hs =>
      .pure (Nat.le_add_left_of_le (Scope.row_nesting_le (Scope.get_subset scope name) hs))
  | .tuple rows, _, _, hs => (RowTerm.evalAll_nesting rows hs).bind fun _ hr => .pure hr
  | .item row index, _, _, hs => (RowTerm.eval_nesting row hs).bind fun r hr =>
      .pure (Row.nesting_le_of_subset (r.item_subset index) hr)
  | .key row, _, _, hs => (RowTerm.eval_nesting row hs).bind fun r hr =>
      .pure (Row.nesting_le_of_subset r.key_subset hr)
  | .source row, _, _, hs => (RowTerm.eval_nesting row hs).bind fun r hr =>
      .pure (Row.nesting_le_of_subset r.source_subset hr)
  | .group key source, _, _, hs =>
      (RowTerm.eval_nesting key hs).bind fun _ hk =>
        (RowTerm.eval_nesting source hs).bind fun _ hr => .pure (by
          simp only [Row.nesting, RowTerm.subqueries]
          omega)
  | .table t, _, _, _ => (Table.columnNodes_nesting t.name t.columns).bind fun _ hc => .pure hc
  | .bind name value body, _, _, hs =>
      (RowTerm.eval_nesting value hs).bind fun r hr s => by
        have hscope := Scope.nesting_cons_le (.named name r) hr (Nat.le_add_left_of_le hs)
        have hbody := RowTerm.eval_nesting body hscope s
        simp only [RowTerm.subqueries]
        omega
  | .expr e, _, _, hs => (ExprTerm.eval_nesting e hs).bind fun _ he => .pure he

theorem RowTerm.evalAll_nesting : ∀ (ts : List RowTerm) {scope : Scope} {n : Nat},
    scope.nesting ≤ n →
      Build.Returns (fun rows => Row.nestingAll rows ≤ RowTerm.subqueriesAll ts + n)
        (RowTerm.evalAll ts scope)
  | [], _, _, _ => .pure (Nat.zero_le _)
  | t :: ts, _, _, hs =>
      (RowTerm.eval_nesting t hs).bind fun _ hr =>
        (RowTerm.evalAll_nesting ts hs).bind fun _ hrs => .pure (by
          simp only [Row.nestingAll, RowTerm.subqueriesAll]
          omega)

end

/-! ## Clauses over rows -/

section

variable {scope : Scope} {row : Row} {n : Nat} (hs : scope.nesting ≤ n)

include hs

theorem ExprTerm.evalOn_nesting (t : ExprTerm) (hr : row.nesting ≤ n) :
    Build.Returns (fun e => e.nesting ≤ t.subqueries + n) (t.evalOn scope row) :=
  t.eval_nesting (Scope.nesting_cons_le (.clause row) hr hs)

theorem ExprTerm.evalAllOn_nesting (ts : List ExprTerm) (hr : row.nesting ≤ n) :
    Build.Returns (fun es => Expr.nestingAll es ≤ ExprTerm.subqueriesAll ts + n)
      (ExprTerm.evalAllOn ts scope row) :=
  ExprTerm.evalAll_nesting ts (Scope.nesting_cons_le (.clause row) hr hs)

theorem RowTerm.evalJoined_nesting (t : RowTerm) {inner : Row} (hr : row.nesting ≤ n)
    (hi : inner.nesting ≤ n) :
    Build.Returns (fun r => r.nesting ≤ t.subqueries + n) (t.evalJoined scope row inner) :=
  t.eval_nesting (Scope.nesting_cons_le (.joined row inner) (Nat.max_le.2 ⟨hr, hi⟩) hs)

omit hs in
theorem RowTerm.runStages_nesting : ∀ (stages : List RowTerm) {row : Row} {n : Nat},
    scope.nesting ≤ n → row.nesting ≤ n →
      Build.Returns (fun r => r.nesting ≤ RowTerm.subqueriesAll stages + n)
        (RowTerm.runStages scope stages row)
  | [], _, _, _, hr => .pure (Nat.le_add_left_of_le hr)
  | stage :: stages, row, _, hs, hr => by
      refine (stage.eval_nesting (Scope.nesting_cons_le (.clause row) hr hs)).bind fun r hr s => ?_
      have hrest := runStages_nesting stages (Nat.le_add_left_of_le hs) hr s
      simp only [RowTerm.subqueriesAll]
      omega

end

/-! ## Queries without subqueries -/

structure JoinTerm.SubqueryFree (join : JoinTerm) : Prop where
  outerKey : join.outerKey.subqueries = 0
  innerKey : join.innerKey.subqueries = 0
  result : join.result.subqueries = 0

def ClauseRule.subqueryFree : ClauseRule where
  table _ := True
  stage t := t.subqueries = 0
  aliases _ := True
  filter t := t.subqueries = 0
  sortKey key := key.key.subqueries = 0
  grouping keys condition :=
    ExprTerm.subqueriesAll keys = 0 ∧ ExprTerm.subqueriesOption condition = 0
  having t := t.subqueries = 0
  join := JoinTerm.SubqueryFree
  filter_and h₁ h₂ := Nat.add_eq_zero_iff.2 ⟨h₁, h₂⟩
  grouping_having h h' := ⟨h.1, h'⟩

theorem RowTerm.subqueries_eq_zero : ∀ {ts : List RowTerm}, RowTerm.subqueriesAll ts = 0 →
    ∀ t ∈ ts, t.subqueries = 0
  | [], _ => by simp
  | _ :: _, h => by
      obtain ⟨ht, hts⟩ := Nat.add_eq_zero_iff.1 h
      exact List.forall_mem_cons.2 ⟨ht, RowTerm.subqueries_eq_zero hts⟩

theorem RowTerm.subqueriesAll_eq_zero : ∀ {ts : List RowTerm}, (∀ t ∈ ts, t.subqueries = 0) →
    RowTerm.subqueriesAll ts = 0
  | [], _ => rfl
  | _ :: _, h => by
      rw [List.forall_mem_cons] at h
      exact Nat.add_eq_zero_iff.2 ⟨h.1, RowTerm.subqueriesAll_eq_zero h.2⟩

theorem SortTerm.subqueries_eq_zero : ∀ {keys : List SortTerm}, SortTerm.subqueriesAll keys = 0 →
    ∀ key ∈ keys, key.key.subqueries = 0
  | [], _ => by simp
  | .mk _ _ :: _, h => by
      obtain ⟨hk, hks⟩ := Nat.add_eq_zero_iff.1 h
      exact List.forall_mem_cons.2 ⟨hk, SortTerm.subqueries_eq_zero hks⟩

theorem ExprTerm.subqueriesAll_keys_eq_zero : ∀ {keys : List SortTerm},
    (∀ key ∈ keys, key.key.subqueries = 0) → ExprTerm.subqueriesAll (keys.map (·.key)) = 0
  | [], _ => rfl
  | _ :: _, h => by
      rw [List.forall_mem_cons] at h
      exact Nat.add_eq_zero_iff.2 ⟨h.1, ExprTerm.subqueriesAll_keys_eq_zero h.2⟩

theorem JoinTerm.subqueryFree_of_all : ∀ {joins : List JoinTerm},
    JoinTerm.subqueriesAll joins = 0 → ∀ join ∈ joins, join.SubqueryFree
  | [], _ => by simp
  | .mk _ _ _ _ _ _ :: _, h => by
      simp only [JoinTerm.subqueriesAll, Nat.add_eq_zero_iff] at h
      obtain ⟨⟨⟨ho, hi⟩, hr⟩, hjs⟩ := h
      exact List.forall_mem_cons.2 ⟨⟨ho, hi, hr⟩, JoinTerm.subqueryFree_of_all hjs⟩

/-- A query in which no subquery is written has no clause with one. -/
theorem Query.obeys_subqueryFree : ∀ {q : Query}, q.subqueries = 0 → q.Obeys .subqueryFree
  | .table _, _ => .table trivial
  | .derived _, h => .derived (Query.obeys_subqueryFree h)
  | .select _ _ _, h => by
      obtain ⟨hq, hs⟩ := Nat.add_eq_zero_iff.1 h
      exact .select (Query.obeys_subqueryFree hq) (RowTerm.subqueries_eq_zero hs)
        fun _ _ => trivial
  | .filter _ _, h => by
      obtain ⟨hq, hp⟩ := Nat.add_eq_zero_iff.1 h
      exact .filter (Query.obeys_subqueryFree hq) hp
  | .orderBy _ _, h => by
      obtain ⟨hq, hk⟩ := Nat.add_eq_zero_iff.1 h
      exact .orderBy (Query.obeys_subqueryFree hq) (SortTerm.subqueries_eq_zero hk)
  | .groupBy _ _ _, h => by
      obtain ⟨hqk, hc⟩ := Nat.add_eq_zero_iff.1 h
      obtain ⟨hq, hk⟩ := Nat.add_eq_zero_iff.1 hqk
      exact .groupBy (Query.obeys_subqueryFree hq) ⟨hk, hc⟩
  | .having _ _, h => by
      obtain ⟨hq, hp⟩ := Nat.add_eq_zero_iff.1 h
      exact .having (Query.obeys_subqueryFree hq) hp
  | .join _ _, h => by
      obtain ⟨hq, hj⟩ := Nat.add_eq_zero_iff.1 h
      exact .join (Query.obeys_subqueryFree hq) (JoinTerm.subqueryFree_of_all hj)

/-! ## Subqueries of the normal form -/

theorem RowTerm.subqueriesAll_append : ∀ first second : List RowTerm,
    RowTerm.subqueriesAll (first ++ second) =
      RowTerm.subqueriesAll first + RowTerm.subqueriesAll second
  | [], _ => (Nat.zero_add _).symm
  | term :: first, second => by
      rw [List.cons_append, RowTerm.subqueriesAll, RowTerm.subqueriesAll,
        subqueriesAll_append first second, Nat.add_assoc]

theorem SortTerm.subqueriesAll_append : ∀ first second : List SortTerm,
    SortTerm.subqueriesAll (first ++ second) =
      SortTerm.subqueriesAll first + SortTerm.subqueriesAll second
  | [], _ => (Nat.zero_add _).symm
  | .mk _ _ :: first, second => by
      rw [List.cons_append, SortTerm.subqueriesAll, SortTerm.subqueriesAll,
        subqueriesAll_append first second, Nat.add_assoc]

theorem JoinTerm.subqueriesAll_append : ∀ first second : List JoinTerm,
    JoinTerm.subqueriesAll (first ++ second) =
      JoinTerm.subqueriesAll first + JoinTerm.subqueriesAll second
  | [], _ => (Nat.zero_add _).symm
  | .mk _ _ _ _ _ _ :: first, second => by
      rw [List.cons_append, JoinTerm.subqueriesAll, JoinTerm.subqueriesAll,
        subqueriesAll_append first second, ← Nat.add_assoc]

theorem Query.subqueries_fuseOnce (q : Query) : q.fuseOnce.1.subqueries = q.subqueries := by
  fun_induction Query.fuseOnce q <;>
    simp_all only [Query.subqueries, ExprTerm.subqueries, ExprTerm.subqueriesOption,
      SortTerm.subqueriesAll_append, RowTerm.subqueriesAll_append, JoinTerm.subqueriesAll_append,
      Nat.add_assoc, Nat.add_zero]

/-- No subquery is made up or lost on the way to the normal form. -/
theorem Query.subqueries_normalize (q : Query) : q.normalize.subqueries = q.subqueries := by
  have hrooted : ∀ q : Query, q.rooted.subqueries = q.subqueries := by
    intro q
    cases q <;> rfl
  rw [Query.normalize, hrooted]
  induction q using Query.passes_induction with
  | done q hq => rw [Query.fused_of_unchanged hq]
  | pass q hq ih => rw [Query.fused_of_changed hq, ih, Query.subqueries_fuseOnce]

end QueryCompiler
