import QueryCompiler.Proofs.PassedRows
import QueryCompiler.Proofs.PlanFailures

/-! # `QueryCompiler.Proofs.QualifiedNames` — columns that a plan names with their table

A plan names a column `c`, or `t.c` if it is to be the one of table `t`.  Both are looked for in the
row that the step is given, among the expressions within reach of names: all that the row flattens to,
and behind the key of a group also those of its source.

The name is one text, and its first point is where it is cut.  A point in the name of the column does
no harm.  One in the name of the table does: what is looked for then is another column of another
table, and the column that was meant is out of reach of qualified names.

    table          column       name                  looked for
    orders         Id           orders.Id             Id of orders
    customers      full.name    customers.full.name   full.name of customers
    dbo.orders     Id           dbo.orders.Id         orders.Id of dbo
-/

namespace QueryCompiler

/-! ## Expressions within reach of names -/

namespace Row

/-- The expressions among which a column is looked for by its name, in order. -/
def reachable : Row → List Expr
  | .group key source => key.reachable ++ source.reachable
  | row => row.flatten

theorem find?_eq (table : Option String) (name : String) : ∀ row : Row,
    row.find? table name = row.reachable.find? (Expr.isColumnNamed table name)
  | .group key source => by
      rw [find?, reachable, List.find?_append, key.find?_eq, source.find?_eq]
  | .expr _ | .tuple _ | .table .. | .absent => rfl

end Row

theorem Expr.isColumnNamed_iff {table name : String} {e : Expr} :
    e.isColumnNamed (some table) name = true ↔ ∃ id, e = .column id table name := by
  cases e with
  | column => simp [isColumnNamed, and_comm]
  | _ => simp [isColumnNamed]

/-! ## Cutting a name -/

/-- A text whose first part has no point is cut behind it. -/
theorem splitAtPoint_append {owner : String} (h : '.' ∉ owner.toList) (member : String) :
    splitAtPoint (owner ++ "." ++ member) = some (owner, member) := by
  have hpass : ∀ c ∈ owner.toList, decide (c ≠ '.') = true := by
    intro c hc
    exact decide_eq_true fun he => h (he ▸ hc)
  have htext : (owner ++ "." ++ member).toList = owner.toList ++ '.' :: member.toList := by simp
  rw [splitAtPoint, htext, List.span_eq_takeWhile_dropWhile, List.takeWhile_append_of_pos hpass,
    List.dropWhile_append_of_pos hpass]
  simp

/-- A text with a point is cut at the first one. -/
theorem exists_cut {name : String} (h : '.' ∈ name.toList) :
    ∃ owner member, name = owner ++ "." ++ member ∧ '.' ∉ owner.toList := by
  obtain ⟨before, after, hname, hbefore⟩ := List.eq_append_cons_of_mem h
  refine ⟨String.ofList before, String.ofList after, ?_, by simpa using hbefore⟩
  rw [← String.toList_inj]
  simpa using hname

namespace ExprTerm

variable {scope : Scope} {row : Row} {owner table column : String}

/-- What stands before the first point is the table that is looked for, the rest its column. -/
theorem resolve_evalOn (h : '.' ∉ owner.toList) (member : String) (scope : Scope) (row : Row) :
    (resolve (owner ++ "." ++ member)).evalOn scope row = row.columnOf owner member := by
  rw [resolve, splitAtPoint_append h]
  rfl

/-- A column that is there is found under its qualified name if its table has no point in its name. -/
theorem resolve_found {e : Expr} (h : '.' ∉ table.toList)
    (he : row.reachable.find? (Expr.isColumnNamed (some table) column) = some e) :
    (resolve (table ++ "." ++ column)).evalOn scope row = pure e := by
  rw [resolve_evalOn h, Row.columnOf, Row.find?_eq, he]
  rfl

theorem resolve_missing (h : '.' ∉ owner.toList) {member : String}
    (hnone : row.find? (some owner) member = none) :
    (resolve (owner ++ "." ++ member)).evalOn scope row =
      Build.node (.unknown · (owner ++ "." ++ member)) := by
  rw [resolve_evalOn h, Row.columnOf, hnone]
  rfl

/-- What is found under a name is a column of the table before the first point, or of none. -/
theorem resolve_owner (h : '.' ∉ owner.toList) (member : String) (scope : Scope) (row : Row) :
    Build.Returns (fun e => ∀ id table column, e = .column id table column → table = owner)
      ((resolve (owner ++ "." ++ member)).evalOn scope row) := by
  rw [resolve_evalOn h, Row.columnOf]
  cases hfind : row.find? (some owner) member with
  | none => exact .node fun i id table column he => Expr.noConfusion he
  | some e =>
      refine .pure fun id table column he => ?_
      rw [Row.find?_eq] at hfind
      obtain ⟨id', he'⟩ := Expr.isColumnNamed_iff.1 (List.find?_some hfind)
      rw [he] at he'
      injection he'

end ExprTerm

/-! ## Declared columns -/

/-- A column is one of those declared for its table. -/
def Expr.Declared (D : String → List String) : Expr → Prop
  | .column _ table name => name ∈ D table
  | _ => True

/-- The columns in a row, those of a grouped source included, are declared. -/
def Row.Declared (D : String → List String) (row : Row) : Prop := ∀ e ∈ row.leaves, e.Declared D

section

variable {D : String → List String} {scope : Scope} {row : Row}

namespace Row.Declared

theorem pair {outer inner : Row} (houter : outer.Declared D) (hinner : inner.Declared D) :
    (Row.tuple [outer, inner]).Declared D :=
  List.forall_mem_append.2 ⟨houter, List.forall_mem_append.2 ⟨hinner, List.forall_mem_nil _⟩⟩

theorem group {keys : List Expr} (hrow : row.Declared D) (hkeys : ∀ e ∈ keys, e.Declared D) :
    (Row.group (.tuple (keys.map .expr)) row).Declared D := by
  refine List.forall_mem_append.2 ⟨?_, hrow⟩
  rw [leaves, leavesAll_map_expr]
  exact hkeys

end Row.Declared

theorem Table.columnNodes_declared {table : String} : ∀ {names : List String}, names ⊆ D table →
    Build.Returns (fun es => ∀ e ∈ es, Expr.Declared D e) (Table.columnNodes table names)
  | [], _ => .pure (List.forall_mem_nil _)
  | _ :: _, h => by
      obtain ⟨hname, hnames⟩ := List.cons_subset.1 h
      have hnode : ∀ id, Expr.Declared D (.column id table _) := fun _ => hname
      refine (Build.Returns.node hnode).bind fun e he => ?_
      exact (columnNodes_declared hnames).bind fun es hes => .pure (List.forall_mem_cons.2 ⟨he, hes⟩)

/-- A name finds an expression of the row, or nothing. -/
theorem ExprTerm.resolve_declared (name : String) (scope : Scope) (hrow : row.Declared D) :
    Build.Returns (Expr.Declared D) ((resolve name).evalOn scope row) := by
  have hfound : ∀ table column text, Build.Returns (Expr.Declared D)
      (Row.orUnknown (row.find? table column) text) := by
    intro table column text
    cases hfind : row.find? table column with
    | none => exact .node fun _ => trivial
    | some e => exact .pure (hrow e (Row.mem_of_find? hfind))
  unfold resolve
  split
  · exact hfound _ _ _
  · exact hfound _ _ _

theorem ExprTerm.evalAll_declared : ∀ {ts : List ExprTerm},
    (∀ t ∈ ts, Build.Returns (Expr.Declared D) (t.eval scope)) →
      Build.Returns (fun es => ∀ e ∈ es, Expr.Declared D e) (ExprTerm.evalAll ts scope)
  | [], _ => .pure (List.forall_mem_nil _)
  | _ :: _, h => by
      obtain ⟨ht, hts⟩ := List.forall_mem_cons.1 h
      refine ht.bind fun e he => ?_
      exact (evalAll_declared hts).bind fun es hes => .pure (List.forall_mem_cons.2 ⟨he, hes⟩)

theorem RowTerm.exprs_declared {ts : List ExprTerm}
    (h : ∀ t ∈ ts, Build.Returns (Expr.Declared D) (t.eval scope)) :
    Build.Returns (Row.Declared D) ((RowTerm.exprs ts).eval scope) := by
  have hall : Build.Returns (fun rows => ∀ e ∈ Row.leavesAll rows, e.Declared D)
      (RowTerm.evalAll (ts.map .expr) scope) := by
    induction ts with
    | nil => exact .pure (List.forall_mem_nil _)
    | cons t ts ih =>
        obtain ⟨ht, hts⟩ := List.forall_mem_cons.1 h
        have hone : Build.Returns (Row.Declared D) ((RowTerm.expr t).eval scope) :=
          ht.bind fun e he => .pure (List.forall_mem_singleton.2 he)
        refine hone.bind fun row hrow => (ih hts).bind fun rows hrows => .pure ?_
        exact List.forall_mem_append.2 ⟨hrow, hrows⟩
  exact hall.bind fun rows hrows => .pure hrows

end

/-! ## The rows of a plan -/

namespace Plan

variable {plan : Plan}

theorem table_keeps {name : String} {t : Table} (h : plan.table name = .ok t) :
    Build.Returns (fun columns => (Row.table t columns).Declared plan.columnsOf) t.instantiate :=
  Table.columnNodes_declared (table_declared h)

/-- Every step keeps to the columns that are declared. -/
theorem apply_keeps {q q' : Query} {step : Step} {scope : Scope}
    (hq : q.Obeys (.keeping (Row.Declared plan.columnsOf) scope)) (h : plan.apply q step = .ok q') :
    q'.Obeys (.keeping (Row.Declared plan.columnsOf) scope) := by
  cases step with
  | join join =>
      obtain ⟨term, hterm, h⟩ := Except.bind_eq_ok h
      obtain ⟨t, ht, hterm⟩ := Except.bind_eq_ok hterm
      cases h
      cases hterm
      refine .join hq (List.forall_mem_singleton.2 ⟨table_keeps ht, ?_⟩)
      intro outer inner houter hinner
      exact .pure (houter.pair hinner)
  | filter condition =>
      obtain ⟨p, -, h⟩ := Except.bind_eq_ok h
      cases h
      exact .filter hq trivial
  | groupBy columns =>
      cases h
      refine .groupBy hq fun row hrow => ?_
      have hkeys : Build.Returns (fun es => ∀ e ∈ es, Expr.Declared plan.columnsOf e)
          (ExprTerm.evalAllOn (columns.map .resolve) scope row) :=
        ExprTerm.evalAll_declared (List.forall_mem_map.2 fun column _ =>
          ExprTerm.resolve_declared column scope hrow)
      exact fun s => hrow.group (hkeys s)
  | orderBy keys =>
      cases h
      exact .orderBy hq fun _ _ => trivial
  | select columns =>
      cases h
      refine .select hq (List.forall_mem_singleton.2 fun row hrow => ?_) (by simp)
      refine RowTerm.exprs_declared (List.forall_mem_map.2 fun column _ => ?_)
      exact ExprTerm.resolve_declared column scope hrow

theorem build_keeps {planned : Planned} (h : plan.build = .ok planned) (scope : Scope) :
    planned.query.Obeys (.keeping (Row.Declared plan.columnsOf) scope) := by
  refine build_induction (I := Query.Obeys (.keeping (Row.Declared plan.columnsOf) scope))
    ?_ ?_ ?_ ?_ h
  · intro start hstart
    exact .table (table_keeps hstart)
  · intro step _ q q' hq happly
    exact apply_keeps hq happly
  · intro aggregate _ column _ q hq
    refine .select hq (List.forall_mem_singleton.2 fun row hrow => ?_) (by simp)
    refine (ExprTerm.resolve_declared column scope hrow).bind fun e he => .pure ?_
    exact List.forall_mem_singleton.2 he
  · intro aggregate _ q hq
    refine .select hq (List.forall_mem_singleton.2 fun row _ => ?_) (by simp)
    refine RowTerm.exprs_declared (List.forall_mem_singleton.2 ?_)
    cases aggregate.func with
    | count => exact .node fun _ => trivial
    | _ =>
        refine Build.Returns.bind (P := fun _ => True) (fun _ => trivial) fun _ _ => ?_
        exact .node fun _ => trivial

/-- The rows that are passed when a plan is compiled; these are all, since no step of a plan has
a subquery. -/
def Planned.passedRows (d : Dialect) : Planned → List Row
  | .rows q => q.textRows [] ⟨.empty d, {}⟩
  | .scalar q => q.textRows [] ⟨.empty d, {}⟩

theorem passedRows_declared {planned : Planned} (h : plan.build = .ok planned) {d : Dialect} :
    ∀ row ∈ planned.passedRows d, row.Declared plan.columnsOf := by
  have hkeeps := build_keeps h []
  cases planned with
  | rows q => exact Query.textRows_keep hkeeps
  | scalar q => exact ScalarQuery.textRows_keep hkeeps

/-- In every row that is passed when a plan is compiled, the first column `c` of a table `t` within
reach is what `t.c` stands for, if and only if there is no point in `t`.  Otherwise the name stands
for another column or none: it is unknown, unless the plan declares for the part before the first
point a column that goes by the rest. -/
theorem resolve_firstOfTable {planned : Planned} (hbuild : plan.build = .ok planned) {d : Dialect}
    {row : Row} (hrow : row ∈ planned.passedRows d) {t c : String} {e : Expr}
    (he : row.reachable.find? (Expr.isColumnNamed (some t) c) = some e) (scope : Scope) (s : Supply) :
    c ∈ plan.columnsOf t ∧
    (((ExprTerm.resolve (t ++ "." ++ c)).evalOn scope row s).1 = e ↔ '.' ∉ t.toList) ∧
    ∀ owner rest, t = owner ++ "." ++ rest → '.' ∉ owner.toList →
      rest ++ "." ++ c ∉ plan.columnsOf owner →
        ∃ id, ((ExprTerm.resolve (t ++ "." ++ c)).evalOn scope row s).1 =
          .unknown id (t ++ "." ++ c) := by
  have hdeclared := passedRows_declared hbuild row hrow
  -- whatever is found under a table and a column is declared there
  have hfound : ∀ {t c e}, row.find? (some t) c = some e → c ∈ plan.columnsOf t := by
    intro t c e hfind
    have hmem := hdeclared e (Row.mem_of_find? hfind)
    rw [Row.find?_eq] at hfind
    obtain ⟨id, rfl⟩ := Expr.isColumnNamed_iff.1 (List.find?_some hfind)
    exact hmem
  have hcut : ∀ owner rest,
      owner ++ "." ++ rest ++ "." ++ c = owner ++ "." ++ (rest ++ "." ++ c) := by
    simp [String.append_assoc]
  refine ⟨hfound (Row.find?_eq _ _ row ▸ he), ⟨fun hresolve hpoint => ?_, fun hpoint => ?_⟩, ?_⟩
  · -- the column would be one of the table before the first point, whose name is shorter
    obtain ⟨owner, rest, rfl, howner⟩ := exists_cut hpoint
    obtain ⟨id, rfl⟩ := Expr.isColumnNamed_iff.1 (List.find?_some he)
    rw [hcut] at hresolve
    have htable := ExprTerm.resolve_owner howner (rest ++ "." ++ c) scope row s id _ _ hresolve
    rw [htable] at hpoint
    exact howner hpoint
  · rw [ExprTerm.resolve_found hpoint he]
    rfl
  · rintro owner rest rfl howner hundeclared
    have hnone : row.find? (some owner) (rest ++ "." ++ c) = none :=
      Option.eq_none_iff_forall_ne_some.2 fun _ hfind => hundeclared (hfound hfind)
    rw [hcut, ExprTerm.resolve_missing howner hnone]
    exact ⟨_, rfl⟩

/-- Orders with their customers, in groups; a column of the customers has a point in its name. -/
private def customersByOrder : Plan where
  tables := [("orders", ["Id", "CustomerId"]), ("customers", ["Id", "full.name"])]
  start := "orders"
  steps :=
    [.join ⟨"customers", .left, "orders.CustomerId", "customers.Id"⟩, .groupBy ["orders.Id"],
      .select ["Id", "customers.full.name"]]
  aggregate := none

/-- One table, under the name of its schema. -/
private def schemaOrders : Plan where
  tables := [("dbo.orders", ["Id"])]
  start := "dbo.orders"
  steps := [.select ["dbo.orders.Id"]]
  aggregate := none

/-- The first row passed in which a column of a table is within reach and of which the test holds. -/
private def firstPassed (plan : Plan) (t c : String) (test : Row → Bool) : Option (Planned × Row) :=
  plan.build.toOption.bind fun planned =>
    ((planned.passedRows .generic).find? fun row => (row.find? (some t) c).isSome && test row).map
      (planned, ·)

private theorem exists_passed (plan : Plan) (t c : String) (test : Row → Bool)
    (h : (firstPassed plan t c test).isSome = true) :
    ∃ planned row e, plan.build = .ok planned ∧ row ∈ planned.passedRows .generic ∧
      row.reachable.find? (Expr.isColumnNamed (some t) c) = some e ∧ test row = true := by
  obtain ⟨r, hr⟩ := Option.isSome_iff_exists.1 h
  obtain ⟨planned, hbuild, hr⟩ := Option.bind_eq_some_iff.1 hr
  obtain ⟨row, hrow, -⟩ := Option.map_eq_some_iff.1 hr
  have hholds := List.find?_some hrow
  obtain ⟨hfind, htest⟩ := Bool.and_eq_true_iff.1 hholds
  obtain ⟨e, he⟩ := Option.isSome_iff_exists.1 hfind
  exact ⟨planned, row, e, Except.eq_ok_of_toOption hbuild, List.mem_of_find?_eq_some hrow,
    Row.find?_eq _ _ row ▸ he, htest⟩

/-- A column with a point in its name is found behind the key of a group, and one of a table with
a point in its name is not found at all. -/
theorem resolve_firstOfTable_customersByOrder :
    (∃ planned row e, customersByOrder.build = .ok planned ∧ row ∈ planned.passedRows .generic ∧
      row.reachable.find? (Expr.isColumnNamed (some "customers") "full.name") = some e ∧
      row.flatten.find? (Expr.isColumnNamed (some "customers") "full.name") = none ∧
      ∀ scope s, ((ExprTerm.resolve "customers.full.name").evalOn scope row s).1 = e) ∧
    ∃ planned row e, schemaOrders.build = .ok planned ∧ row ∈ planned.passedRows .generic ∧
      row.reachable.find? (Expr.isColumnNamed (some "dbo.orders") "Id") = some e ∧
      '.' ∉ "dbo".toList ∧ "orders.Id" ∉ schemaOrders.columnsOf "dbo" ∧
      ∀ scope s, ∃ id,
        ((ExprTerm.resolve "dbo.orders.Id").evalOn scope row s).1 = .unknown id "dbo.orders.Id" := by
  constructor
  · obtain ⟨planned, row, e, hbuild, hrow, he, hflat⟩ :=
      exists_passed customersByOrder "customers" "full.name"
        (fun row => (row.flatten.find? (Expr.isColumnNamed (some "customers") "full.name")).isNone)
        (by decide +kernel)
    refine ⟨planned, row, e, hbuild, hrow, he, Option.isNone_iff_eq_none.1 hflat, fun scope s => ?_⟩
    exact (resolve_firstOfTable hbuild hrow he scope s).2.1.2 (by decide)
  · obtain ⟨planned, row, e, hbuild, hrow, he, -⟩ :=
      exists_passed schemaOrders "dbo.orders" "Id" (fun _ => true) (by decide +kernel)
    have howner : '.' ∉ "dbo".toList := by decide
    have hundeclared : "orders.Id" ∉ schemaOrders.columnsOf "dbo" := by decide
    refine ⟨planned, row, e, hbuild, hrow, he, howner, hundeclared, fun scope s => ?_⟩
    exact (resolve_firstOfTable hbuild hrow he scope s).2.2 "dbo" "orders" rfl howner hundeclared

/-- The column is there, and its qualified name is unknown. -/
theorem resolve_schemaOrders_ne :
    ∃ planned row e, schemaOrders.build = .ok planned ∧ row ∈ planned.passedRows .generic ∧
      row.reachable.find? (Expr.isColumnNamed (some "dbo.orders") "Id") = some e ∧
      (∀ scope s, ((ExprTerm.resolve "dbo.orders.Id").evalOn scope row s).1 ≠ e) ∧
      CommandLine.compilePlanned .generic planned = .error (.unknownColumn "dbo.orders.Id") := by
  obtain ⟨planned, row, e, hbuild, hrow, he, hnone⟩ :=
    exists_passed schemaOrders "dbo.orders" "Id"
      (fun row => (row.find? (some "dbo") "orders.Id").isNone) (by decide +kernel)
  have hrun : (schemaOrders.build.toOption.map fun planned =>
      (CommandLine.compilePlanned .generic planned).map fun _ => ()) =
        some (.error (.unknownColumn "dbo.orders.Id")) := by decide +kernel
  refine ⟨planned, row, e, hbuild, hrow, he, fun scope s hresolve => ?_, ?_⟩
  · have hmissing : (ExprTerm.resolve "dbo.orders.Id").evalOn scope row =
        Build.node (.unknown · "dbo.orders.Id") :=
      ExprTerm.resolve_missing (by decide) (Option.isNone_iff_eq_none.1 hnone)
    obtain ⟨id, rfl⟩ := Expr.isColumnNamed_iff.1 (List.find?_some he)
    rw [hmissing] at hresolve
    exact Expr.noConfusion hresolve
  · rw [hbuild] at hrun
    cases hc : CommandLine.compilePlanned .generic planned with
    | ok c =>
        rw [Except.toOption, Option.map_some, hc] at hrun
        cases hrun
    | error e =>
        rw [Except.toOption, Option.map_some, hc] at hrun
        cases hrun
        rfl

end Plan

end QueryCompiler
