import QueryCompiler.Proofs.Building
import QueryCompiler.Proofs.ClauseRule
import QueryCompiler.Proofs.Leaves

/-! # `QueryCompiler.Proofs.Lines.Names` — the names that a query may write

The names of a query are those of its tables and their columns, of its parameters, and those given
for outputs.  Names that are only looked up are not among them, since they are never written.
Evaluation makes up no names: what a term builds in a scope has names of the term and of the scope
only, and the clauses of the normal form have names of the query only.
-/

namespace QueryCompiler

/-- The name of a table, and of its columns. -/
def Table.names (t : Table) : List String := t.name :: t.columns

/-! ## Terms and queries -/

mutual

/-- The names that a term may write. -/
def ExprTerm.names : ExprTerm → List String
  | .literal _ | .null | .countStar => []
  | .column table name => [table, name]
  | .parameter name => [name]
  | .named row _ => row.names
  | .qualified row _ _ => row.names
  | .field row _ => row.names
  | .binary _ left right => left.names ++ right.names
  | .unary _ operand => operand.names
  | .compare _ left right => left.names ++ right.names
  | .aggregate _ _ operand => operand.names
  | .case condition positive negative => condition.names ++ (positive.names ++ negative.names)
  | .like value pattern => value.names ++ pattern.names
  | .inList needle values => needle.names ++ ExprTerm.namesAll values
  | .inQuery needle query => needle.names ++ query.names
  | .over row body => row.names ++ body.names

def ExprTerm.namesAll : List ExprTerm → List String
  | [] => []
  | term :: terms => term.names ++ ExprTerm.namesAll terms

def ExprTerm.namesOption : Option ExprTerm → List String
  | none => []
  | some term => term.names

def RowTerm.names : RowTerm → List String
  | .slot .. | .absent | .get _ => []
  | .tuple rows => RowTerm.namesAll rows
  | .item row _ => row.names
  | .key row => row.names
  | .source row => row.names
  | .group key source => key.names ++ source.names
  | .table t => t.names
  | .bind _ value body => value.names ++ body.names
  | .expr e => e.names

def RowTerm.namesAll : List RowTerm → List String
  | [] => []
  | term :: terms => term.names ++ RowTerm.namesAll terms

def SortTerm.namesAll : List SortTerm → List String
  | [] => []
  | .mk _ key :: keys => key.names ++ SortTerm.namesAll keys

def JoinTerm.namesAll : List JoinTerm → List String
  | [] => []
  | .mk _ table outerKey innerKey result aliases :: joins =>
    table.names ++ (outerKey.names ++ (innerKey.names ++ (result.names ++ (aliases.getD [] ++
      JoinTerm.namesAll joins))))

def Query.names : Query → List String
  | .table t => t.names
  | .derived inner => inner.names
  | .select source stages aliases =>
    source.names ++ (RowTerm.namesAll stages ++ aliases.getD [])
  | .filter source predicate => source.names ++ predicate.names
  | .orderBy source keys => source.names ++ SortTerm.namesAll keys
  | .groupBy source keys condition =>
    source.names ++ (ExprTerm.namesAll keys ++ ExprTerm.namesOption condition)
  | .having source predicate => source.names ++ predicate.names
  | .join source joins => source.names ++ JoinTerm.namesAll joins

end

/-! ## Expressions and scopes -/

mutual

/-- The names in an expression, and within reach of its subqueries. -/
def Expr.names : Expr → List String
  | .literal .. | .null _ | .countStar _ | .unknown .. => []
  | .column _ table name => [table, name]
  | .parameter _ name => [name]
  | .binary _ _ left right => left.names ++ right.names
  | .unary _ _ operand => operand.names
  | .compare _ _ left right => left.names ++ right.names
  | .aggregate _ _ _ operand => operand.names
  | .case _ condition positive negative => condition.names ++ (positive.names ++ negative.names)
  | .like _ value pattern => value.names ++ pattern.names
  | .inList _ needle values => needle.names ++ Expr.namesAll values
  | .inQuery _ needle query scope => needle.names ++ (query.names ++ Entry.namesAll scope)

def Expr.namesAll : List Expr → List String
  | [] => []
  | e :: es => e.names ++ Expr.namesAll es

def Row.names : Row → List String
  | .expr e => e.names
  | .tuple rows => Row.namesAll rows
  | .table _ columns => Expr.namesAll columns
  | .group key source => key.names ++ source.names
  | .absent => []

def Row.namesAll : List Row → List String
  | [] => []
  | row :: rows => row.names ++ Row.namesAll rows

def Entry.names : Entry → List String
  | .named _ row => row.names
  | .clause row => row.names
  | .joined outer inner => outer.names ++ inner.names

def Entry.namesAll : List Entry → List String
  | [] => []
  | entry :: entries => entry.names ++ Entry.namesAll entries

end

def Scope.names (scope : Scope) : List String := Entry.namesAll scope

section

variable {P : String → Prop}

theorem Expr.forall_names_all {es : List Expr} :
    (∀ n ∈ Expr.namesAll es, P n) ↔ ∀ e ∈ es, ∀ n ∈ e.names, P n := by
  induction es with
  | nil => simp [Expr.namesAll]
  | cons e es ih => rw [Expr.namesAll, List.forall_mem_append, List.forall_mem_cons, ih]

mutual

theorem Row.forall_names : ∀ {row : Row},
    (∀ n ∈ row.names, P n) ↔ ∀ e ∈ row.leaves, ∀ n ∈ e.names, P n
  | .expr e => by simp [Row.names, Row.leaves]
  | .tuple rows => Row.forall_names_all
  | .table _ columns => Expr.forall_names_all
  | .group key source => by
      rw [Row.names, Row.leaves, List.forall_mem_append, List.forall_mem_append, Row.forall_names,
        Row.forall_names]
  | .absent => by simp [Row.names, Row.leaves]

theorem Row.forall_names_all : ∀ {rows : List Row},
    (∀ n ∈ Row.namesAll rows, P n) ↔ ∀ e ∈ Row.leavesAll rows, ∀ n ∈ e.names, P n
  | [] => by simp [Row.namesAll, Row.leavesAll]
  | row :: rows => by
      rw [Row.namesAll, Row.leavesAll, List.forall_mem_append, List.forall_mem_append,
        Row.forall_names, Row.forall_names_all]

end

theorem Entry.forall_names {entry : Entry} :
    (∀ n ∈ entry.names, P n) ↔ ∀ e ∈ entry.leaves, ∀ n ∈ e.names, P n := by
  cases entry with
  | named _ row => exact Row.forall_names
  | clause row => exact Row.forall_names
  | joined outer inner =>
      rw [Entry.names, Entry.leaves, List.forall_mem_append, List.forall_mem_append,
        Row.forall_names, Row.forall_names]

theorem Scope.forall_names {scope : Scope} :
    (∀ n ∈ scope.names, P n) ↔ ∀ e ∈ scope.leaves, ∀ n ∈ e.names, P n := by
  unfold Scope.names Scope.leaves
  induction scope with
  | nil => simp [Entry.namesAll]
  | cons entry rest ih =>
      rw [Entry.namesAll, List.flatMap_cons, List.forall_mem_append, List.forall_mem_append,
        Entry.forall_names, ih]

/-- What is found in a row has names of the row. -/
theorem Row.forall_names_of_subset {row row' : Row} (h : row'.leaves ⊆ row.leaves)
    (hrow : ∀ n ∈ row.names, P n) : ∀ n ∈ row'.names, P n :=
  Row.forall_names.2 fun e he => Row.forall_names.1 hrow e (h he)

/-- What is found in a scope has names of the scope. -/
theorem Scope.row_names {scope : Scope} {row : Row} (h : row.leaves ⊆ scope.leaves)
    (hs : ∀ n ∈ scope.names, P n) : ∀ n ∈ row.names, P n :=
  Row.forall_names.2 fun e he => Scope.forall_names.1 hs e (h he)

theorem Scope.forall_names_cons (entry : Entry) {scope : Scope} (he : ∀ n ∈ entry.names, P n)
    (hs : ∀ n ∈ scope.names, P n) : ∀ n ∈ Scope.names (entry :: scope), P n :=
  List.forall_mem_append.2 ⟨he, hs⟩

/-! ## Evaluation -/

theorem Row.orUnknown_names {found : Option Expr} (h : ∀ e ∈ found, ∀ n ∈ e.names, P n)
    (name : String) : Build.Returns (fun e => ∀ n ∈ e.names, P n) (Row.orUnknown found name) := by
  cases found with
  | none => exact .node fun _ => List.forall_mem_nil _
  | some e => exact .pure (h e rfl)

theorem Table.columnNodes_names {table : String} (ht : P table) : ∀ {names : List String},
    (∀ n ∈ names, P n) →
      Build.Returns (fun es => ∀ n ∈ Expr.namesAll es, P n) (Table.columnNodes table names)
  | [], _ => .pure (List.forall_mem_nil _)
  | name :: names, h => by
      rw [List.forall_mem_cons] at h
      refine Build.Returns.bind (P := fun e => ∀ n ∈ e.names, P n) (.node fun _ => ?_)
        fun column hcolumn => (Table.columnNodes_names ht h.2).bind fun columns hcolumns => .pure ?_
      · simpa [Expr.names] using And.intro ht h.1
      · exact List.forall_mem_append.2 ⟨hcolumn, hcolumns⟩

theorem Table.instantiate_names {t : Table} (h : ∀ n ∈ t.names, P n) :
    Build.Returns (fun es => ∀ n ∈ (Row.table t es).names, P n) t.instantiate := by
  rw [Table.names, List.forall_mem_cons] at h
  exact Table.columnNodes_names h.1 h.2

mutual

/-- A term builds an expression with names of the term and of the scope only. -/
theorem ExprTerm.eval_names : ∀ (t : ExprTerm) {scope : Scope}, (∀ n ∈ t.names, P n) →
    (∀ n ∈ scope.names, P n) → Build.Returns (fun e => ∀ n ∈ e.names, P n) (t.eval scope)
  | .literal _, _, _, _ | .null, _, _, _ | .countStar, _, _, _ =>
      .node fun _ => List.forall_mem_nil _
  | .column .., _, h, _ | .parameter _, _, h, _ => .node fun _ => h
  | .named row name, _, h, hs => (RowTerm.eval_names row h hs).bind fun _ hr =>
      Row.orUnknown_names (fun e he => Row.forall_names.1 hr e (Row.mem_of_find? he)) name
  | .qualified row table name, _, h, hs => (RowTerm.eval_names row h hs).bind fun _ hr =>
      Row.orUnknown_names (fun e he => Row.forall_names.1 hr e (Row.mem_of_find? he)) _
  | .field row index, _, h, hs => (RowTerm.eval_names row h hs).bind fun r hr =>
      Row.orUnknown_names (fun e he => Row.forall_names.1 hr e
        (r.flatten_subset (List.mem_of_getElem? he))) _
  | .unary _ operand, _, h, hs | .aggregate _ _ operand, _, h, hs =>
      (ExprTerm.eval_names operand h hs).bind fun _ ho => .node fun _ => ho
  | .binary _ left right, _, h, hs | .compare _ left right, _, h, hs | .like left right, _, h, hs => by
      obtain ⟨hl, hr⟩ := List.forall_mem_append.1 h
      exact (ExprTerm.eval_names left hl hs).bind fun _ hl =>
        (ExprTerm.eval_names right hr hs).bind fun _ hr =>
          .node fun _ => List.forall_mem_append.2 ⟨hl, hr⟩
  | .case condition positive negative, _, h, hs => by
      obtain ⟨hc, h⟩ := List.forall_mem_append.1 h
      obtain ⟨hp, hn⟩ := List.forall_mem_append.1 h
      exact (ExprTerm.eval_names condition hc hs).bind fun _ hc =>
        (ExprTerm.eval_names positive hp hs).bind fun _ hp =>
          (ExprTerm.eval_names negative hn hs).bind fun _ hn => .node fun _ =>
            List.forall_mem_append.2 ⟨hc, List.forall_mem_append.2 ⟨hp, hn⟩⟩
  | .inList needle values, _, h, hs => by
      obtain ⟨hn, hv⟩ := List.forall_mem_append.1 h
      exact (ExprTerm.eval_names needle hn hs).bind fun _ hn =>
        (ExprTerm.evalAll_names values hv hs).bind fun _ hv =>
          .node fun _ => List.forall_mem_append.2 ⟨hn, hv⟩
  | .inQuery needle query, _, h, hs => by
      obtain ⟨hn, hq⟩ := List.forall_mem_append.1 h
      exact (ExprTerm.eval_names needle hn hs).bind fun _ hn => .node fun _ =>
        List.forall_mem_append.2 ⟨hn, List.forall_mem_append.2 ⟨hq, hs⟩⟩
  | .over row body, _, h, hs => by
      obtain ⟨hr, hb⟩ := List.forall_mem_append.1 h
      exact (RowTerm.eval_names row hr hs).bind fun r hr =>
        ExprTerm.eval_names body hb (Scope.forall_names_cons (.clause r) hr hs)

theorem ExprTerm.evalAll_names : ∀ (ts : List ExprTerm) {scope : Scope},
    (∀ n ∈ ExprTerm.namesAll ts, P n) → (∀ n ∈ scope.names, P n) →
      Build.Returns (fun es => ∀ n ∈ Expr.namesAll es, P n) (ExprTerm.evalAll ts scope)
  | [], _, _, _ => .pure (List.forall_mem_nil _)
  | t :: ts, _, h, hs => by
      obtain ⟨ht, hts⟩ := List.forall_mem_append.1 h
      exact (ExprTerm.eval_names t ht hs).bind fun _ he =>
        (ExprTerm.evalAll_names ts hts hs).bind fun _ hes =>
          .pure (List.forall_mem_append.2 ⟨he, hes⟩)

/-- A term builds a row with names of the term and of the scope only. -/
theorem RowTerm.eval_names : ∀ (t : RowTerm) {scope : Scope}, (∀ n ∈ t.names, P n) →
    (∀ n ∈ scope.names, P n) → Build.Returns (fun row => ∀ n ∈ row.names, P n) (t.eval scope)
  | .slot up slot, scope, _, hs => .pure (Scope.row_names (Scope.slot_subset scope up slot) hs)
  | .get name, scope, _, hs => .pure (Scope.row_names (Scope.get_subset scope name) hs)
  | .absent, _, _, _ => .pure (List.forall_mem_nil _)
  | .tuple rows, _, h, hs => (RowTerm.evalAll_names rows h hs).bind fun _ hr => .pure hr
  | .item row index, _, h, hs => (RowTerm.eval_names row h hs).bind fun r hr =>
      .pure (Row.forall_names_of_subset (r.item_subset index) hr)
  | .key row, _, h, hs => (RowTerm.eval_names row h hs).bind fun r hr =>
      .pure (Row.forall_names_of_subset r.key_subset hr)
  | .source row, _, h, hs => (RowTerm.eval_names row h hs).bind fun r hr =>
      .pure (Row.forall_names_of_subset r.source_subset hr)
  | .group key source, _, h, hs => by
      obtain ⟨hk, hr⟩ := List.forall_mem_append.1 h
      exact (RowTerm.eval_names key hk hs).bind fun _ hk =>
        (RowTerm.eval_names source hr hs).bind fun _ hr =>
          .pure (List.forall_mem_append.2 ⟨hk, hr⟩)
  | .table t, _, h, _ => (Table.instantiate_names (t := t) h).bind fun _ hc => .pure hc
  | .bind name value body, _, h, hs => by
      obtain ⟨hv, hb⟩ := List.forall_mem_append.1 h
      exact (RowTerm.eval_names value hv hs).bind fun r hr =>
        RowTerm.eval_names body hb (Scope.forall_names_cons (.named name r) hr hs)
  | .expr e, _, h, hs => (ExprTerm.eval_names e h hs).bind fun _ he => .pure he

theorem RowTerm.evalAll_names : ∀ (ts : List RowTerm) {scope : Scope},
    (∀ n ∈ RowTerm.namesAll ts, P n) → (∀ n ∈ scope.names, P n) →
      Build.Returns (fun rows => ∀ n ∈ Row.namesAll rows, P n) (RowTerm.evalAll ts scope)
  | [], _, _, _ => .pure (List.forall_mem_nil _)
  | t :: ts, _, h, hs => by
      obtain ⟨ht, hts⟩ := List.forall_mem_append.1 h
      exact (RowTerm.eval_names t ht hs).bind fun _ hr =>
        (RowTerm.evalAll_names ts hts hs).bind fun _ hrs =>
          .pure (List.forall_mem_append.2 ⟨hr, hrs⟩)

end

theorem RowTerm.runStages_names {scope : Scope} (hs : ∀ n ∈ scope.names, P n) :
    ∀ {stages : List RowTerm} {row : Row}, (∀ stage ∈ stages, ∀ n ∈ stage.names, P n) →
      (∀ n ∈ row.names, P n) →
        Build.Returns (fun row => ∀ n ∈ row.names, P n) (RowTerm.runStages scope stages row)
  | [], _, _, hr => .pure hr
  | stage :: stages, row, h, hr => by
      rw [List.forall_mem_cons] at h
      exact (RowTerm.eval_names stage h.1 (Scope.forall_names_cons (.clause row) hr hs)).bind
        fun _ hr => RowTerm.runStages_names hs h.2 hr

end

/-! ## Clauses of queries -/

def JoinTerm.names (join : JoinTerm) : List String := JoinTerm.namesAll [join]

/-- The names that the clauses of a query write have the property. -/
def ClauseRule.named (P : String → Prop) : ClauseRule where
  table t := ∀ n ∈ t.names, P n
  stage t := ∀ n ∈ t.names, P n
  aliases names := ∀ n ∈ names, P n
  filter t := ∀ n ∈ t.names, P n
  sortKey key := ∀ n ∈ key.key.names, P n
  grouping keys condition :=
    (∀ n ∈ ExprTerm.namesAll keys, P n) ∧ ∀ n ∈ ExprTerm.namesOption condition, P n
  having t := ∀ n ∈ t.names, P n
  join join := ∀ n ∈ join.names, P n
  filter_and h₁ h₂ := List.forall_mem_append.2 ⟨h₁, h₂⟩
  grouping_having h h' := ⟨h.1, h'⟩

section

variable {P : String → Prop}

theorem RowTerm.forall_names_all : ∀ {ts : List RowTerm}, (∀ n ∈ RowTerm.namesAll ts, P n) →
    ∀ t ∈ ts, ∀ n ∈ t.names, P n
  | [], _ => by simp
  | _ :: _, h => by
      obtain ⟨ht, hts⟩ := List.forall_mem_append.1 h
      exact List.forall_mem_cons.2 ⟨ht, RowTerm.forall_names_all hts⟩

theorem SortTerm.forall_names_all : ∀ {ts : List SortTerm}, (∀ n ∈ SortTerm.namesAll ts, P n) →
    ∀ t ∈ ts, ∀ n ∈ t.key.names, P n
  | [], _ => by simp
  | .mk _ _ :: _, h => by
      obtain ⟨ht, hts⟩ := List.forall_mem_append.1 h
      exact List.forall_mem_cons.2 ⟨ht, SortTerm.forall_names_all hts⟩

theorem JoinTerm.forall_names_all : ∀ {ts : List JoinTerm}, (∀ n ∈ JoinTerm.namesAll ts, P n) →
    ∀ t ∈ ts, ∀ n ∈ t.names, P n
  | [], _ => by simp
  | .mk _ _ _ _ _ _ :: joins, h => by
      simp only [JoinTerm.namesAll, List.forall_mem_append] at h
      obtain ⟨ht, ho, hi, hr, ha, hjs⟩ := h
      refine List.forall_mem_cons.2 ⟨?_, JoinTerm.forall_names_all hjs⟩
      simp only [JoinTerm.names, JoinTerm.namesAll, List.forall_mem_append]
      exact ⟨ht, ho, hi, hr, ha, List.forall_mem_nil _⟩

/-- The names of a query are the names of its clauses. -/
theorem Query.obeys_named : ∀ {q : Query}, (∀ n ∈ q.names, P n) → q.Obeys (.named P)
  | .table _, h => .table h
  | .derived _, h => .derived (Query.obeys_named h)
  | .select _ _ aliases, h => by
      obtain ⟨hq, h⟩ := List.forall_mem_append.1 h
      obtain ⟨hs, ha⟩ := List.forall_mem_append.1 h
      refine .select (Query.obeys_named hq) (RowTerm.forall_names_all hs) ?_
      rintro names rfl
      exact ha
  | .filter _ _, h => by
      obtain ⟨hq, hp⟩ := List.forall_mem_append.1 h
      exact .filter (Query.obeys_named hq) hp
  | .orderBy _ _, h => by
      obtain ⟨hq, hk⟩ := List.forall_mem_append.1 h
      exact .orderBy (Query.obeys_named hq) (SortTerm.forall_names_all hk)
  | .groupBy _ _ _, h => by
      obtain ⟨hq, h⟩ := List.forall_mem_append.1 h
      exact .groupBy (Query.obeys_named hq) (List.forall_mem_append.1 h)
  | .having _ _, h => by
      obtain ⟨hq, hp⟩ := List.forall_mem_append.1 h
      exact .having (Query.obeys_named hq) hp
  | .join _ _, h => by
      obtain ⟨hq, hj⟩ := List.forall_mem_append.1 h
      exact .join (Query.obeys_named hq) (JoinTerm.forall_names_all hj)

end

end QueryCompiler
