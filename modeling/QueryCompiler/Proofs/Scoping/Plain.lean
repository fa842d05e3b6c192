import QueryCompiler.Proofs.ClauseRule
import QueryCompiler.Proofs.Scoping.Reads

/-! # `QueryCompiler.Proofs.Scoping.Plain` — terms without subqueries and groups

A plain term holds no subquery and makes no group.  Over rows that read the given fields it builds
what reads them too: it can pass on nodes that it is given, and all other nodes it builds are new to
the ledger.

    rows of Γ read F in l     t plain
    ---------------------------------------------
    what t builds in Γ reads F in the grown ledger
-/

namespace QueryCompiler

mutual

/-- A term without subqueries and groups. -/
inductive ExprTerm.Plain : ExprTerm → Prop
  | literal {value} : ExprTerm.Plain (.literal value)
  | null : ExprTerm.Plain .null
  | column {table name} : ExprTerm.Plain (.column table name)
  | parameter {name} : ExprTerm.Plain (.parameter name)
  | named {row name} : RowTerm.Plain row → ExprTerm.Plain (.named row name)
  | qualified {row table name} : RowTerm.Plain row → ExprTerm.Plain (.qualified row table name)
  | field {row index} : RowTerm.Plain row → ExprTerm.Plain (.field row index)
  | binary {op left right} : ExprTerm.Plain left → ExprTerm.Plain right →
      ExprTerm.Plain (.binary op left right)
  | unary {op operand} : ExprTerm.Plain operand → ExprTerm.Plain (.unary op operand)
  | compare {op left right} : ExprTerm.Plain left → ExprTerm.Plain right →
      ExprTerm.Plain (.compare op left right)
  | aggregate {func distinct operand} : ExprTerm.Plain operand →
      ExprTerm.Plain (.aggregate func distinct operand)
  | countStar : ExprTerm.Plain .countStar
  | case {condition positive negative} : ExprTerm.Plain condition → ExprTerm.Plain positive →
      ExprTerm.Plain negative → ExprTerm.Plain (.case condition positive negative)
  | like {value pattern} : ExprTerm.Plain value → ExprTerm.Plain pattern →
      ExprTerm.Plain (.like value pattern)
  | inList {needle values} : ExprTerm.Plain needle → (∀ value ∈ values, ExprTerm.Plain value) →
      ExprTerm.Plain (.inList needle values)
  | over {row body} : RowTerm.Plain row → ExprTerm.Plain body → ExprTerm.Plain (.over row body)

inductive RowTerm.Plain : RowTerm → Prop
  | slot {up slot} : RowTerm.Plain (.slot up slot)
  | absent : RowTerm.Plain .absent
  | tuple {rows} : (∀ row ∈ rows, RowTerm.Plain row) → RowTerm.Plain (.tuple rows)
  | item {row index} : RowTerm.Plain row → RowTerm.Plain (.item row index)
  | key {row} : RowTerm.Plain row → RowTerm.Plain (.key row)
  | source {row} : RowTerm.Plain row → RowTerm.Plain (.source row)
  | table {t} : RowTerm.Plain (.table t)
  | get {name} : RowTerm.Plain (.get name)
  | bind {name value body} : RowTerm.Plain value → RowTerm.Plain body →
      RowTerm.Plain (.bind name value body)
  | expr {e} : ExprTerm.Plain e → RowTerm.Plain (.expr e)

end

structure JoinTerm.Plain (join : JoinTerm) : Prop where
  outerKey : join.outerKey.Plain
  innerKey : join.innerKey.Plain
  result : join.result.Plain

/-- No grouping, no subquery, and no columns but those that tables are known to have. -/
def ClauseRule.plain (columnsOf : String → List String) : ClauseRule where
  table t := t.columns ⊆ columnsOf t.name
  stage := RowTerm.Plain
  aliases _ := True
  filter := ExprTerm.Plain
  sortKey key := key.key.Plain
  grouping _ _ := False
  having _ := False
  join j := j.table.columns ⊆ columnsOf j.table.name ∧ j.Plain
  filter_and h₁ h₂ := .binary h₁ h₂
  grouping_having h _ := h

/-! ## Evaluation -/

variable {l : Ledger} {fields : List Reference}

/-- The columns of a use of a table are new. -/
theorem Table.columnNodes_grows (table : String) (columns : List String) :
    Build.Grows l (fun l' es => es.length = columns.length ∧
      ∀ e ∈ es, ¬ l.Given e.id ∧ e.Reads l' fields) (Table.columnNodes table columns) := by
  induction columns generalizing l with
  | nil => exact .pure ⟨rfl, by simp⟩
  | cons column columns ih =>
      have hnew : Build.Grows l (fun l' e => ¬ l.Given e.id ∧ e.Reads l' fields)
          (Build.node fun id => Expr.column id table column) :=
        .node ⟨l.not_given_nextId,
          .built rfl l.given_nextId (l.read_eq_none l.not_given_nextId) (by simp)⟩
      refine hnew.bind fun l₁ e hl₁ he => ih.bind fun l₂ es hl₂ hes => .pure ?_
      refine ⟨congrArg (· + 1) hes.1, List.forall_mem_cons.2 ⟨⟨he.1, ?_⟩, fun e' he' => ?_⟩⟩
      · exact he.2.grow hl₂
      · obtain ⟨hnot, hreads⟩ := hes.2 e' he'
        exact ⟨fun hg => hnot (hl₁.given hg), hreads⟩

theorem Row.orUnknown_reads {found : Option Expr} (h : ∀ e ∈ found, e.Reads l fields)
    (name : String) :
    Build.Grows l (fun l' e => e.Reads l' fields) (Row.orUnknown found name) := by
  cases found with
  | none => exact Expr.Reads.node (fun _ => rfl) (fun _ => rfl) (by simp)
  | some e => exact .pure (h e rfl)

/-- A node over what two computations build, one after the other. -/
theorem Expr.Reads.node_of_two {first second : Build Expr} {make : NodeId → Expr → Expr → Expr}
    (h₁ : first.Grows l fun l' e => e.Reads l' fields)
    (h₂ : ∀ l', l.Grows l' → second.Grows l' fun l' e => e.Reads l' fields)
    (hmake : ∀ id a b, (make id a b).id = id ∧ (make id a b).operands? = some [a, b]) :
    Build.Grows l (fun l' e => e.Reads l' fields) (do
      let a ← first
      let b ← second
      Build.node fun id => make id a b) := by
  refine h₁.bind fun l₁ a hl₁ ha => (h₂ l₁ hl₁).bind fun l₂ b hl₂ hb => ?_
  exact Expr.Reads.node (fun id => (hmake id a b).1) (fun id => (hmake id a b).2)
    (List.forall_mem_cons.2 ⟨ha.grow hl₂, List.forall_mem_singleton.2 hb⟩)

mutual

/-- Over rows that read the fields, a plain term builds an expression that reads them. -/
theorem ExprTerm.eval_reads : ∀ {t : ExprTerm} {l : Ledger} {scope : Scope}, t.Plain →
    Scope.Flat (Expr.Reads l fields) scope →
      Build.Grows l (fun l' e => e.Reads l' fields) (t.eval scope)
  | _, _, _, .literal, _ => Expr.Reads.node (fun _ => rfl) (fun _ => rfl) (by simp)
  | _, _, _, .null, _ => Expr.Reads.node (fun _ => rfl) (fun _ => rfl) (by simp)
  | _, _, _, .column, _ => Expr.Reads.node (fun _ => rfl) (fun _ => rfl) (by simp)
  | _, _, _, .parameter, _ => Expr.Reads.node (fun _ => rfl) (fun _ => rfl) (by simp)
  | _, _, _, .countStar, _ => Expr.Reads.node (fun _ => rfl) (fun _ => rfl) (by simp)
  | _, _, _, .named h, hs => (RowTerm.eval_reads h hs).bind fun _ _ _ hr =>
      Row.orUnknown_reads hr.find? _
  | _, _, _, .qualified h, hs => (RowTerm.eval_reads h hs).bind fun _ _ _ hr =>
      Row.orUnknown_reads hr.find? _
  | _, _, _, .field h, hs => (RowTerm.eval_reads h hs).bind fun _ _ _ hr =>
      Row.orUnknown_reads (fun e he => hr.flatten e (List.mem_of_getElem? he)) _
  | _, _, _, .unary h, hs => (ExprTerm.eval_reads h hs).bind fun _ _ _ ho =>
      Expr.Reads.node (fun _ => rfl) (fun _ => rfl) (List.forall_mem_singleton.2 ho)
  | _, _, _, .aggregate h, hs => (ExprTerm.eval_reads h hs).bind fun _ _ _ ho =>
      Expr.Reads.node (fun _ => rfl) (fun _ => rfl) (List.forall_mem_singleton.2 ho)
  | _, _, _, .binary h₁ h₂, hs => Expr.Reads.node_of_two (ExprTerm.eval_reads h₁ hs)
      (fun _ hl => ExprTerm.eval_reads h₂ (hs.grow hl)) fun _ _ _ => ⟨rfl, rfl⟩
  | _, _, _, .compare h₁ h₂, hs => Expr.Reads.node_of_two (ExprTerm.eval_reads h₁ hs)
      (fun _ hl => ExprTerm.eval_reads h₂ (hs.grow hl)) fun _ _ _ => ⟨rfl, rfl⟩
  | _, _, _, .like h₁ h₂, hs => Expr.Reads.node_of_two (ExprTerm.eval_reads h₁ hs)
      (fun _ hl => ExprTerm.eval_reads h₂ (hs.grow hl)) fun _ _ _ => ⟨rfl, rfl⟩
  | _, _, _, .case h₁ h₂ h₃, hs => by
      refine (ExprTerm.eval_reads h₁ hs).bind fun l₁ c hl₁ hc => ?_
      refine (ExprTerm.eval_reads h₂ (hs.grow hl₁)).bind fun l₂ p hl₂ hp => ?_
      refine (ExprTerm.eval_reads h₃ ((hs.grow hl₁).grow hl₂)).bind fun l₃ n hl₃ hn => ?_
      refine Expr.Reads.node (fun _ => rfl) (fun _ => rfl) (List.forall_mem_cons.2 ⟨?_, ?_⟩)
      · exact hc.grow (hl₂.trans hl₃)
      · exact List.forall_mem_cons.2
          ⟨hp.grow hl₃, List.forall_mem_singleton.2 hn⟩
  | _, _, _, .inList h₁ h₂, hs => by
      refine (ExprTerm.eval_reads h₁ hs).bind fun l₁ n hl₁ hn => ?_
      refine (ExprTerm.evalAll_reads h₂ (hs.grow hl₁)).bind fun l₂ vs hl₂ hvs => ?_
      exact Expr.Reads.node (fun _ => rfl) (fun _ => rfl)
        (List.forall_mem_cons.2 ⟨hn.grow hl₂, hvs⟩)
  | _, _, _, .over h₁ h₂, hs => (RowTerm.eval_reads h₁ hs).bind fun _ _ hl hr =>
      ExprTerm.eval_reads h₂ ((hs.grow hl).cons (.clause hr))

theorem ExprTerm.evalAll_reads : ∀ {ts : List ExprTerm} {l : Ledger} {scope : Scope},
    (∀ t ∈ ts, t.Plain) → Scope.Flat (Expr.Reads l fields) scope →
      Build.Grows l (fun l' es => ∀ e ∈ es, e.Reads l' fields) (ExprTerm.evalAll ts scope)
  | [], _, _, _, _ => .pure (by simp)
  | t :: _, _, _, h, hs => by
      refine (ExprTerm.eval_reads (h t List.mem_cons_self) hs).bind fun l₁ e hl₁ he => ?_
      refine (ExprTerm.evalAll_reads (fun t ht => h t (List.mem_cons_of_mem _ ht))
        (hs.grow hl₁)).bind fun l₂ es hl₂ hes => .pure ?_
      exact List.forall_mem_cons.2 ⟨he.grow hl₂, hes⟩

/-- Over rows that read the fields, a plain term builds a row that reads them. -/
theorem RowTerm.eval_reads : ∀ {t : RowTerm} {l : Ledger} {scope : Scope}, t.Plain →
    Scope.Flat (Expr.Reads l fields) scope →
      Build.Grows l (fun l' row => row.Flat (Expr.Reads l' fields)) (t.eval scope)
  | _, _, _, .slot, hs => .pure (hs.slot _ _)
  | _, _, _, .absent, _ => .pure .absent
  | _, _, _, .tuple h, hs => (RowTerm.evalAll_reads h hs).bind fun _ _ _ hr => .pure (.tuple hr)
  | _, _, _, .item h, hs => (RowTerm.eval_reads h hs).bind fun _ _ _ hr => .pure (hr.item _)
  | _, _, _, .key h, hs => (RowTerm.eval_reads h hs).bind fun _ _ _ hr =>
      .pure (hr.key_eq.symm ▸ hr)
  | _, _, _, .source h, hs => (RowTerm.eval_reads h hs).bind fun _ _ _ hr =>
      .pure (hr.source_eq.symm ▸ hr)
  | _, _, _, .table, _ => (Table.columnNodes_grows _ _).bind fun _ _ _ hc =>
      .pure (.table fun e he => (hc.2 e he).2)
  | _, _, _, .get, hs => .pure (hs.get _)
  | _, _, _, .bind h₁ h₂, hs => (RowTerm.eval_reads h₁ hs).bind fun _ _ hl hv =>
      RowTerm.eval_reads h₂ ((hs.grow hl).cons (.named hv))
  | _, _, _, .expr h, hs => (ExprTerm.eval_reads h hs).bind fun _ _ _ he => .pure (.expr he)

theorem RowTerm.evalAll_reads : ∀ {ts : List RowTerm} {l : Ledger} {scope : Scope},
    (∀ t ∈ ts, t.Plain) → Scope.Flat (Expr.Reads l fields) scope →
      Build.Grows l (fun l' rows => ∀ row ∈ rows, row.Flat (Expr.Reads l' fields))
        (RowTerm.evalAll ts scope)
  | [], _, _, _, _ => .pure (by simp)
  | t :: _, _, _, h, hs => by
      refine (RowTerm.eval_reads (h t List.mem_cons_self) hs).bind fun l₁ row hl₁ hr => ?_
      refine (RowTerm.evalAll_reads (fun t ht => h t (List.mem_cons_of_mem _ ht))
        (hs.grow hl₁)).bind fun l₂ rows hl₂ hrs => .pure ?_
      exact List.forall_mem_cons.2 ⟨hr.grow hl₂, hrs⟩

end

theorem RowTerm.runStages_reads {scope : Scope} : ∀ {stages : List RowTerm} {l : Ledger}
    {row : Row}, (∀ stage ∈ stages, stage.Plain) → Scope.Flat (Expr.Reads l fields) scope →
      row.Flat (Expr.Reads l fields) →
        Build.Grows l (fun l' row => row.Flat (Expr.Reads l' fields))
          (RowTerm.runStages scope stages row)
  | [], _, _, _, _, hr => .pure hr
  | stage :: _, _, _, h, hs, hr => by
      refine (RowTerm.eval_reads (h stage List.mem_cons_self) (hs.cons (.clause hr))).bind
        fun l₁ row hl₁ hr₁ => ?_
      exact runStages_reads (fun t ht => h t (List.mem_cons_of_mem _ ht)) (hs.grow hl₁) hr₁

end QueryCompiler
