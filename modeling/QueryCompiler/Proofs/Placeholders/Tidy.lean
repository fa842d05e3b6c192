import QueryCompiler.Proofs.Building
import QueryCompiler.Proofs.ClauseRule
import QueryCompiler.Proofs.Leaves
import QueryCompiler.Proofs.Placeholders.Scan
import QueryCompiler.Statement

/-! # `QueryCompiler.Proofs.Placeholders.Tidy` — names that no placeholder is mistaken for

A query is *tidy* in a dialect if its tables, columns and aliases show no mark of the dialect, and
its parameters are words other than those of bound values.  Names that are only looked up do not
matter, since they are never written.

What a tidy term builds in a tidy scope is tidy, and so is what a tidy query is brought to.
-/

namespace QueryCompiler

open Sql (MarkFree)

/-- The name of a parameter: a word, and not one that stands for a bound value. -/
def ParameterName (name : String) : Prop :=
  name.toList.all Sql.isWordChar ∧ Sql.isNumbered name.toList = false

instance (name : String) : Decidable (ParameterName name) :=
  inferInstanceAs (Decidable (_ ∧ _))

/-- The names of a table and of its columns show no mark. -/
structure Table.Tidy (d : Dialect) (t : Table) : Prop where
  name : MarkFree d t.name
  columns : ∀ column ∈ t.columns, MarkFree d column

/-- The names given for outputs show no mark. -/
def AliasesTidy (d : Dialect) (aliases : List String) : Prop := ∀ name ∈ aliases, MarkFree d name

mutual

/-- The names in a term are tidy. -/
inductive ExprTerm.Tidy (d : Dialect) : ExprTerm → Prop
  | literal {value} : ExprTerm.Tidy d (.literal value)
  | null : ExprTerm.Tidy d .null
  | column {table name} : MarkFree d table → MarkFree d name → ExprTerm.Tidy d (.column table name)
  | parameter {name} : ParameterName name → ExprTerm.Tidy d (.parameter name)
  | named {row name} : RowTerm.Tidy d row → ExprTerm.Tidy d (.named row name)
  | qualified {row table name} : RowTerm.Tidy d row → ExprTerm.Tidy d (.qualified row table name)
  | field {row index} : RowTerm.Tidy d row → ExprTerm.Tidy d (.field row index)
  | binary {op left right} : ExprTerm.Tidy d left → ExprTerm.Tidy d right →
      ExprTerm.Tidy d (.binary op left right)
  | unary {op operand} : ExprTerm.Tidy d operand → ExprTerm.Tidy d (.unary op operand)
  | compare {op left right} : ExprTerm.Tidy d left → ExprTerm.Tidy d right →
      ExprTerm.Tidy d (.compare op left right)
  | aggregate {func distinct operand} : ExprTerm.Tidy d operand →
      ExprTerm.Tidy d (.aggregate func distinct operand)
  | countStar : ExprTerm.Tidy d .countStar
  | case {condition positive negative} : ExprTerm.Tidy d condition → ExprTerm.Tidy d positive →
      ExprTerm.Tidy d negative → ExprTerm.Tidy d (.case condition positive negative)
  | like {value pattern} : ExprTerm.Tidy d value → ExprTerm.Tidy d pattern →
      ExprTerm.Tidy d (.like value pattern)
  | inList {needle values} : ExprTerm.Tidy d needle → (∀ value ∈ values, ExprTerm.Tidy d value) →
      ExprTerm.Tidy d (.inList needle values)
  | inQuery {needle query} : ExprTerm.Tidy d needle → Query.Tidy d query →
      ExprTerm.Tidy d (.inQuery needle query)
  | over {row body} : RowTerm.Tidy d row → ExprTerm.Tidy d body → ExprTerm.Tidy d (.over row body)

inductive RowTerm.Tidy (d : Dialect) : RowTerm → Prop
  | slot {up slot} : RowTerm.Tidy d (.slot up slot)
  | absent : RowTerm.Tidy d .absent
  | tuple {rows} : (∀ row ∈ rows, RowTerm.Tidy d row) → RowTerm.Tidy d (.tuple rows)
  | item {row index} : RowTerm.Tidy d row → RowTerm.Tidy d (.item row index)
  | key {row} : RowTerm.Tidy d row → RowTerm.Tidy d (.key row)
  | source {row} : RowTerm.Tidy d row → RowTerm.Tidy d (.source row)
  | group {key source} : RowTerm.Tidy d key → RowTerm.Tidy d source →
      RowTerm.Tidy d (.group key source)
  | table {t} : Table.Tidy d t → RowTerm.Tidy d (.table t)
  | get {name} : RowTerm.Tidy d (.get name)
  | bind {name value body} : RowTerm.Tidy d value → RowTerm.Tidy d body →
      RowTerm.Tidy d (.bind name value body)
  | expr {e} : ExprTerm.Tidy d e → RowTerm.Tidy d (.expr e)

inductive SortTerm.Tidy (d : Dialect) : SortTerm → Prop
  | mk {direction key} : ExprTerm.Tidy d key → SortTerm.Tidy d (.mk direction key)

inductive JoinTerm.Tidy (d : Dialect) : JoinTerm → Prop
  | mk {kind table outerKey innerKey result aliases} : Table.Tidy d table →
      ExprTerm.Tidy d outerKey → ExprTerm.Tidy d innerKey → RowTerm.Tidy d result →
      (∀ names ∈ aliases, AliasesTidy d names) →
      JoinTerm.Tidy d (.mk kind table outerKey innerKey result aliases)

inductive Query.Tidy (d : Dialect) : Query → Prop
  | table {t} : Table.Tidy d t → Query.Tidy d (.table t)
  | derived {inner} : Query.Tidy d inner → Query.Tidy d (.derived inner)
  | select {source stages aliases} : Query.Tidy d source →
      (∀ stage ∈ stages, RowTerm.Tidy d stage) →
      (∀ names ∈ aliases, AliasesTidy d names) → Query.Tidy d (.select source stages aliases)
  | filter {source predicate} : Query.Tidy d source → ExprTerm.Tidy d predicate →
      Query.Tidy d (.filter source predicate)
  | orderBy {source keys} : Query.Tidy d source → (∀ key ∈ keys, SortTerm.Tidy d key) →
      Query.Tidy d (.orderBy source keys)
  | groupBy {source keys condition} : Query.Tidy d source → (∀ key ∈ keys, ExprTerm.Tidy d key) →
      (∀ predicate ∈ condition, ExprTerm.Tidy d predicate) →
      Query.Tidy d (.groupBy source keys condition)
  | having {source predicate} : Query.Tidy d source → ExprTerm.Tidy d predicate →
      Query.Tidy d (.having source predicate)
  | join {source joins} : Query.Tidy d source → (∀ join ∈ joins, JoinTerm.Tidy d join) →
      Query.Tidy d (.join source joins)

end

/-- The names in an expression, and within its reach, are tidy. -/
inductive Expr.Tidy (d : Dialect) : Expr → Prop
  | literal {i value} : Expr.Tidy d (.literal i value)
  | null {i} : Expr.Tidy d (.null i)
  | column {i table name} : MarkFree d table → MarkFree d name → Expr.Tidy d (.column i table name)
  | parameter {i name} : ParameterName name → Expr.Tidy d (.parameter i name)
  | binary {i op left right} : Expr.Tidy d left → Expr.Tidy d right →
      Expr.Tidy d (.binary i op left right)
  | unary {i op operand} : Expr.Tidy d operand → Expr.Tidy d (.unary i op operand)
  | compare {i op left right} : Expr.Tidy d left → Expr.Tidy d right →
      Expr.Tidy d (.compare i op left right)
  | aggregate {i func distinct operand} : Expr.Tidy d operand →
      Expr.Tidy d (.aggregate i func distinct operand)
  | countStar {i} : Expr.Tidy d (.countStar i)
  | case {i condition positive negative} : Expr.Tidy d condition → Expr.Tidy d positive →
      Expr.Tidy d negative → Expr.Tidy d (.case i condition positive negative)
  | like {i value pattern} : Expr.Tidy d value → Expr.Tidy d pattern →
      Expr.Tidy d (.like i value pattern)
  | inList {i needle values} : Expr.Tidy d needle → (∀ value ∈ values, Expr.Tidy d value) →
      Expr.Tidy d (.inList i needle values)
  | inQuery {i needle query scope} : Expr.Tidy d needle → Query.Tidy d query →
      (∀ e ∈ Scope.leaves scope, Expr.Tidy d e) → Expr.Tidy d (.inQuery i needle query scope)
  | unknown {i name} : Expr.Tidy d (.unknown i name)

def Row.Tidy (d : Dialect) (row : Row) : Prop := ∀ e ∈ row.leaves, e.Tidy d

def Scope.Tidy (d : Dialect) (scope : Scope) : Prop := ∀ e ∈ Scope.leaves scope, e.Tidy d

inductive Assigned.Tidy (d : Dialect) : Assigned → Prop
  | computed {term} : ExprTerm.Tidy d term → Assigned.Tidy d (.computed term)
  | fixed {value} : Expr.Tidy d value → Assigned.Tidy d (.fixed value)

inductive Statement.Tidy (d : Dialect) : Statement → Prop
  | delete {s : Delete} : s.table.Tidy d → (∀ term ∈ s.filters, term.Tidy d) →
      Statement.Tidy d (.delete s)
  | update {s : Update} : s.table.Tidy d → (∀ a ∈ s.assignments, a.2.Tidy d) →
      (∀ term ∈ s.filters, term.Tidy d) → Statement.Tidy d (.update s)
  | insert {s : Insert} : s.table.Tidy d → (∀ a ∈ s.values, a.2.Tidy d) →
      Statement.Tidy d (.insert s)

variable {d : Dialect}

/-! ## Queries -/

def ClauseRule.tidy (d : Dialect) : ClauseRule where
  table := Table.Tidy d
  stage := RowTerm.Tidy d
  aliases := AliasesTidy d
  filter := ExprTerm.Tidy d
  sortKey := SortTerm.Tidy d
  grouping keys condition :=
    (∀ key ∈ keys, ExprTerm.Tidy d key) ∧ ∀ predicate ∈ condition, ExprTerm.Tidy d predicate
  having := ExprTerm.Tidy d
  join := JoinTerm.Tidy d
  filter_and h₁ h₂ := .binary h₁ h₂
  grouping_having h hp := ⟨h.1, by simpa using hp⟩

theorem Query.Tidy.obeys : ∀ {q : Query}, q.Tidy d → q.Obeys (.tidy d)
  | _, .table h => .table h
  | _, .derived h => .derived h.obeys
  | _, .select h hs ha => .select h.obeys hs ha
  | _, .filter h hp => .filter h.obeys hp
  | _, .orderBy h hk => .orderBy h.obeys hk
  | _, .groupBy h hk hc => .groupBy h.obeys ⟨hk, hc⟩
  | _, .having h hp => .having h.obeys hp
  | _, .join h hj => .join h.obeys hj

/-! ## Evaluation -/

theorem Table.columnNodes_tidy {table : String} (ht : MarkFree d table) :
    ∀ {columns : List String}, (∀ column ∈ columns, MarkFree d column) →
      Build.Returns (fun es => ∀ e ∈ es, e.Tidy d) (Table.columnNodes table columns)
  | [], _ => .pure (by simp)
  | column :: columns, h => by
      rw [List.forall_mem_cons] at h
      refine Build.Returns.bind (P := Expr.Tidy d) (.node fun _ => .column ht h.1) fun e he => ?_
      refine (columnNodes_tidy ht h.2).bind fun es hes => .pure ?_
      exact List.forall_mem_cons.2 ⟨he, hes⟩

theorem Table.Tidy.instantiate {t : Table} (h : t.Tidy d) :
    Build.Returns (fun es => ∀ e ∈ es, e.Tidy d) t.instantiate :=
  Table.columnNodes_tidy h.name h.columns

theorem Row.orUnknown_tidy {found : Option Expr} (h : ∀ e ∈ found, e.Tidy d) (name : String) :
    Build.Returns (Expr.Tidy d) (Row.orUnknown found name) := by
  cases found with
  | none => exact .node fun _ => .unknown
  | some e => exact .pure (h e rfl)

theorem Scope.Tidy.cons {entry : Entry} {scope : Scope} (hs : Scope.Tidy d scope)
    (h : ∀ e ∈ entry.leaves, e.Tidy d) : Scope.Tidy d (entry :: scope) :=
  fun e he => (List.mem_append.1 he).elim (h e) (hs e)

theorem Scope.Tidy.clause {row : Row} {scope : Scope} (hs : Scope.Tidy d scope) (h : row.Tidy d) :
    Scope.Tidy d (.clause row :: scope) :=
  hs.cons h

mutual

/-- A tidy term builds a tidy expression in a tidy scope. -/
theorem ExprTerm.eval_tidy : ∀ {t : ExprTerm} {scope : Scope}, t.Tidy d → Scope.Tidy d scope →
    Build.Returns (Expr.Tidy d) (t.eval scope)
  | _, _, .literal, _ => .node fun _ => .literal
  | _, _, .null, _ => .node fun _ => .null
  | _, _, .column ht hn, _ => .node fun _ => .column ht hn
  | _, _, .parameter h, _ => .node fun _ => .parameter h
  | _, _, .countStar, _ => .node fun _ => .countStar
  | _, _, .named h, hs => (RowTerm.eval_tidy h hs).bind fun _ hr =>
      Row.orUnknown_tidy (fun e he => hr e (Row.mem_of_find? he)) _
  | _, _, .qualified h, hs => (RowTerm.eval_tidy h hs).bind fun _ hr =>
      Row.orUnknown_tidy (fun e he => hr e (Row.mem_of_find? he)) _
  | _, _, .field h, hs => (RowTerm.eval_tidy h hs).bind fun row hr =>
      Row.orUnknown_tidy (fun e he => hr e (row.flatten_subset (List.mem_of_getElem? he))) _
  | _, _, .binary h₁ h₂, hs => (ExprTerm.eval_tidy h₁ hs).bind fun _ hl =>
      (ExprTerm.eval_tidy h₂ hs).bind fun _ hr => .node fun _ => .binary hl hr
  | _, _, .unary h, hs => (ExprTerm.eval_tidy h hs).bind fun _ ho => .node fun _ => .unary ho
  | _, _, .compare h₁ h₂, hs => (ExprTerm.eval_tidy h₁ hs).bind fun _ hl =>
      (ExprTerm.eval_tidy h₂ hs).bind fun _ hr => .node fun _ => .compare hl hr
  | _, _, .aggregate h, hs =>
      (ExprTerm.eval_tidy h hs).bind fun _ ho => .node fun _ => .aggregate ho
  | _, _, .case h₁ h₂ h₃, hs => (ExprTerm.eval_tidy h₁ hs).bind fun _ hc =>
      (ExprTerm.eval_tidy h₂ hs).bind fun _ hp => (ExprTerm.eval_tidy h₃ hs).bind fun _ hn =>
        .node fun _ => .case hc hp hn
  | _, _, .like h₁ h₂, hs => (ExprTerm.eval_tidy h₁ hs).bind fun _ hv =>
      (ExprTerm.eval_tidy h₂ hs).bind fun _ hp => .node fun _ => .like hv hp
  | _, _, .inList h₁ h₂, hs => (ExprTerm.eval_tidy h₁ hs).bind fun _ hn =>
      (ExprTerm.evalAll_tidy h₂ hs).bind fun _ hv => .node fun _ => .inList hn hv
  | _, _, .inQuery h₁ h₂, hs =>
      (ExprTerm.eval_tidy h₁ hs).bind fun _ hn => .node fun _ => .inQuery hn h₂ hs
  | _, _, .over h₁ h₂, hs =>
      (RowTerm.eval_tidy h₁ hs).bind fun _ hr => ExprTerm.eval_tidy h₂ (hs.clause hr)

theorem ExprTerm.evalAll_tidy : ∀ {ts : List ExprTerm} {scope : Scope},
    (∀ t ∈ ts, t.Tidy d) → Scope.Tidy d scope →
      Build.Returns (fun es => ∀ e ∈ es, e.Tidy d) (ExprTerm.evalAll ts scope)
  | [], _, _, _ => .pure (by simp)
  | t :: _, _, h, hs => (ExprTerm.eval_tidy (h t List.mem_cons_self) hs).bind fun _ he =>
      (ExprTerm.evalAll_tidy (fun t ht => h t (List.mem_cons_of_mem _ ht)) hs).bind fun _ hes =>
        .pure (List.forall_mem_cons.2 ⟨he, hes⟩)

/-- A tidy term builds a tidy row in a tidy scope. -/
theorem RowTerm.eval_tidy : ∀ {t : RowTerm} {scope : Scope}, t.Tidy d → Scope.Tidy d scope →
    Build.Returns (Row.Tidy d) (t.eval scope)
  | _, scope, .slot, hs => .pure fun e he => hs e (Scope.slot_subset scope _ _ he)
  | _, _, .absent, _ => .pure (by simp [Row.Tidy, Row.leaves])
  | _, _, .tuple h, hs => (RowTerm.evalAll_tidy h hs).bind fun _ hr => .pure hr
  | _, _, .item h, hs => (RowTerm.eval_tidy h hs).bind fun row hr =>
      .pure fun e he => hr e (row.item_subset _ he)
  | _, _, .key h, hs => (RowTerm.eval_tidy h hs).bind fun row hr =>
      .pure fun e he => hr e (row.key_subset he)
  | _, _, .source h, hs => (RowTerm.eval_tidy h hs).bind fun row hr =>
      .pure fun e he => hr e (row.source_subset he)
  | _, _, .group h₁ h₂, hs => (RowTerm.eval_tidy h₁ hs).bind fun _ hk =>
      (RowTerm.eval_tidy h₂ hs).bind fun _ hr =>
        .pure fun e he => (List.mem_append.1 he).elim (hk e) (hr e)
  | _, _, .table h, _ => h.instantiate.bind fun _ hc => .pure hc
  | _, scope, .get, hs => .pure fun e he => hs e (Scope.get_subset scope _ he)
  | _, _, .bind h₁ h₂, hs =>
      (RowTerm.eval_tidy h₁ hs).bind fun _ hv => RowTerm.eval_tidy h₂ (hs.cons hv)
  | _, _, .expr h, hs => (ExprTerm.eval_tidy h hs).bind fun _ he =>
      .pure (by simpa [Row.Tidy, Row.leaves] using he)

theorem RowTerm.evalAll_tidy : ∀ {ts : List RowTerm} {scope : Scope},
    (∀ t ∈ ts, t.Tidy d) → Scope.Tidy d scope →
      Build.Returns (fun rows => ∀ e ∈ Row.leavesAll rows, e.Tidy d) (RowTerm.evalAll ts scope)
  | [], _, _, _ => .pure (by simp [Row.leavesAll])
  | t :: _, _, h, hs => (RowTerm.eval_tidy (h t List.mem_cons_self) hs).bind fun _ hr =>
      (RowTerm.evalAll_tidy (fun t ht => h t (List.mem_cons_of_mem _ ht)) hs).bind fun _ hrs =>
        .pure fun e he => (List.mem_append.1 he).elim (hr e) (hrs e)

end

theorem RowTerm.runStages_tidy {scope : Scope} (hs : Scope.Tidy d scope) :
    ∀ {stages : List RowTerm} {row : Row}, (∀ stage ∈ stages, stage.Tidy d) → row.Tidy d →
      Build.Returns (Row.Tidy d) (RowTerm.runStages scope stages row)
  | [], _, _, hr => .pure hr
  | stage :: _, _, h, hr => by
      refine (RowTerm.eval_tidy (h stage List.mem_cons_self) (hs.clause hr)).bind fun row hr => ?_
      exact runStages_tidy hs (fun t ht => h t (List.mem_cons_of_mem _ ht)) hr

end QueryCompiler
