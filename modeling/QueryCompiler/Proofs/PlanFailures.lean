import Mathlib.Data.List.TakeDrop
import QueryCompiler.Proofs.Grounding
import QueryCompiler.Proofs.Scoping.Plans

/-! # `QueryCompiler.Proofs.PlanFailures` — what is to blame if a plan does not compile

The steps of a plan may come in any order, so its query nests groups, pairs and projections through
any number of derived tables.  Whatever the order, every column that a step finds by its name has been
registered, and the clauses always make a statement.  What is left are faults of the plan itself.

    error                      to blame
    ----------------------------------------------------------------------------
    unknown column             a name in the plan
                               an aggregate of the first column, where there is none
    empty list                 a condition that asks for one of no values
    grouping without keys      a grouping by no columns
    empty projection           a selection of no columns, or a start without columns
-/

namespace QueryCompiler

open CompileM (Delivers)

/-! ## Blame -/

def Step.names : Step → List String
  | .join step => [step.outer, step.inner]
  | .filter condition => [condition.column]
  | .groupBy columns => columns
  | .orderBy keys => keys.map (·.column)
  | .select columns => columns

namespace Plan

def names (plan : Plan) : List String :=
  plan.steps.flatMap Step.names ++ (plan.aggregate.bind (·.column)).toList

/-- The errors that a plan is to blame for. -/
inductive Blames (plan : Plan) : CompileError → Prop
  | unknownColumn {name} : name ∈ plan.names → Blames plan (.unknownColumn name)
  | noFirstColumn {aggregate} : plan.aggregate = some aggregate → aggregate.func ≠ .count →
      Blames plan (.unknownColumn "#0")
  | emptyList {column} : .filter ⟨column, .among, .arr []⟩ ∈ plan.steps →
      Blames plan (.unsupportedExpression "InList" "IN list is empty")
  | noKeys : .groupBy [] ∈ plan.steps →
      Blames plan (.unsupportedShape "GroupBy" "grouping without keys")
  | noOutputs : .select [] ∈ plan.steps ∨ plan.columnsOf plan.start = [] →
      Blames plan (.unsupportedShape "Select" "empty projection")

end Plan

/-! ## Terms -/

/-- The two parts of a name make up the name. -/
theorem splitAtPoint_eq_some {name owner member : String}
    (h : splitAtPoint name = some (owner, member)) : owner ++ "." ++ member = name := by
  unfold splitAtPoint at h
  rw [List.span_eq_takeWhile_dropWhile] at h
  split at h
  · cases h
  · next before point after hspan =>
      cases h
      obtain ⟨rfl, hafter⟩ := Prod.mk.inj hspan
      have hpoint : point = '.' := by
        have hhead := List.head?_dropWhile_not (· ≠ '.') name.toList
        rw [hafter] at hhead
        simpa using hhead
      rw [hpoint] at hafter
      have hname : name.toList.takeWhile (· ≠ '.') ++ '.' :: after = name.toList := by
        rw [← hafter, List.takeWhile_append_dropWhile]
      rw [← String.toList_inj]
      simpa using hname

theorem ExprTerm.resolve_grounded {P : CompileError → Prop} {name : String}
    (h : P (.unknownColumn name)) : (ExprTerm.resolve name).Grounded P := by
  unfold ExprTerm.resolve
  split
  · next owner member hsplit => exact .qualified .slot (splitAtPoint_eq_some hsplit ▸ h)
  · exact .named .slot h

theorem ExprTerm.ofValue_grounded {P : CompileError → Prop} (v : Value) :
    (ExprTerm.ofValue v).Grounded P := by
  unfold ExprTerm.ofValue
  split
  · exact .null
  · exact .literal

/-- A row of expressions has as many as there are terms. -/
theorem RowTerm.flatten_exprs (es : List ExprTerm) (scope : Scope) :
    Build.Returns (fun row : Row => row.flatten.length = es.length) ((RowTerm.exprs es).eval scope) := by
  have hall : ∀ es : List ExprTerm, Build.Returns
      (fun rows : List Row => (Row.flattenAll rows).length = es.length)
      (RowTerm.evalAll (es.map .expr) scope) := by
    intro es
    induction es with
    | nil => exact .pure rfl
    | cons e es ih =>
        have hone : Build.Returns (fun row : Row => row.flatten.length = 1)
            ((RowTerm.expr e).eval scope) :=
          Build.Returns.bind (P := fun _ => True) (fun _ => trivial) fun _ _ => .pure rfl
        refine hone.bind fun row hrow => ih.bind fun rows hrows => .pure ?_
        rw [Row.flattenAll, List.length_append, hrow, hrows, List.length_cons, Nat.add_comm]
  exact (hall es).bind fun rows hrows => .pure hrows

theorem RowTerm.exprs_groundedStage {P : CompileError → Prop} {es : List ExprTerm}
    (h : ∀ e ∈ es, e.Grounded P)
    (hnil : es = [] → P (.unsupportedShape "Select" "empty projection")) :
    (RowTerm.exprs es).GroundedStage P where
  grounded := .tuple (List.forall_mem_map.2 fun e he => .expr (h e he))
  filled scope s hrow := hnil (List.eq_nil_of_length_eq_zero
    ((RowTerm.flatten_exprs es scope s).symm.trans (List.length_eq_zero_iff.2 hrow)))

/-! ## Steps -/

namespace Plan

variable {plan : Plan}

theorem names_of_step {step : Step} (hstep : step ∈ plan.steps) {name : String}
    (hname : name ∈ step.names) : name ∈ plan.names :=
  List.mem_append_left _ (List.mem_flatMap.2 ⟨step, hstep, hname⟩)

/-- The column of a step's name, or the step is to blame. -/
theorem resolve_grounded {step : Step} (hstep : step ∈ plan.steps) {name : String}
    (hname : name ∈ step.names) : (ExprTerm.resolve name).Grounded plan.Blames :=
  ExprTerm.resolve_grounded (.unknownColumn (names_of_step hstep hname))

theorem predicate_grounded {condition : Condition} (hstep : .filter condition ∈ plan.steps)
    {p : ExprTerm} (h : predicate condition = .ok p) : p.Grounded plan.Blames := by
  have hs : (ExprTerm.resolve condition.column).Grounded plan.Blames :=
    resolve_grounded hstep List.mem_cons_self
  obtain ⟨column, op, value⟩ := condition
  unfold predicate at h
  split at h
  · next items hop hvalue =>
      obtain rfl : op = .among := hop
      obtain rfl : value = .arr items := hvalue
      obtain ⟨values, hvalues, h⟩ := Except.bind_eq_ok h
      cases h
      refine .inList hs (List.forall_mem_map.2 fun v _ => ExprTerm.ofValue_grounded v) fun hnil => ?_
      obtain rfl := List.map_eq_nil_iff.1 hnil
      cases items with
      | nil => exact .emptyList hstep
      | cons item items =>
          rw [List.mapM_cons] at hvalues
          obtain ⟨v, -, hvalues⟩ := Except.bind_eq_ok hvalues
          obtain ⟨vs, -, hvalues⟩ := Except.bind_eq_ok hvalues
          cases hvalues
  · cases h
  · cases h
    exact .compare hs .null
  · cases h
    exact .compare hs .null
  · obtain ⟨v, -, h⟩ := Except.bind_eq_ok h
    cases h
    exact .compare hs (ExprTerm.ofValue_grounded v)
  · obtain ⟨v, -, h⟩ := Except.bind_eq_ok h
    cases h
    exact .like hs (ExprTerm.ofValue_grounded v)

/-- A step of the plan keeps to grounded clauses. -/
theorem apply_grounded {q q' : Query} {step : Step} (hstep : step ∈ plan.steps)
    (hq : q.Obeys (.grounded plan.Blames)) (h : plan.apply q step = .ok q') :
    q'.Obeys (.grounded plan.Blames) := by
  cases step with
  | join join =>
      obtain ⟨term, hterm, h⟩ := Except.bind_eq_ok h
      obtain ⟨t, -, hterm⟩ := Except.bind_eq_ok hterm
      cases h
      cases hterm
      refine .join hq (List.forall_mem_singleton.2 ⟨?_, ?_, .tuple ?_, fun _ outer inner => ?_⟩)
      · exact resolve_grounded hstep List.mem_cons_self
      · exact resolve_grounded hstep (List.mem_cons_of_mem _ List.mem_cons_self)
      · exact List.forall_mem_cons.2 ⟨.slot, List.forall_mem_singleton.2 .slot⟩
      · exact fun _ hnil => (List.append_eq_nil_iff.1 hnil).1
  | filter condition =>
      obtain ⟨p, hp, h⟩ := Except.bind_eq_ok h
      cases h
      exact .filter hq (predicate_grounded hstep hp)
  | groupBy columns =>
      cases h
      refine .groupBy hq ⟨List.forall_mem_map.2 fun column hc => resolve_grounded hstep hc, by simp,
        fun hnil => ?_⟩
      obtain rfl := List.map_eq_nil_iff.1 hnil
      exact .noKeys hstep
  | orderBy keys =>
      cases h
      refine .orderBy hq (List.forall_mem_map.2 fun key hkey => ?_)
      exact resolve_grounded hstep (List.mem_map_of_mem hkey)
  | select columns =>
      cases h
      refine .select hq (List.forall_mem_singleton.2 (RowTerm.exprs_groundedStage ?_ ?_)) (by simp)
      · exact List.forall_mem_map.2 fun column hc => resolve_grounded hstep hc
      · intro hnil
        obtain rfl := List.map_eq_nil_iff.1 hnil
        exact .noOutputs (.inl hstep)

theorem apply_whole {q q' : Query} {step : Step} (hq : q.Whole) (h : plan.apply q step = .ok q') :
    q'.Whole := by
  cases step with
  | join join =>
      obtain ⟨term, -, h⟩ := Except.bind_eq_ok h
      cases h
      exact ⟨List.cons_ne_nil _ _, hq⟩
  | filter condition =>
      obtain ⟨p, -, h⟩ := Except.bind_eq_ok h
      cases h
      exact hq
  | groupBy | orderBy | select =>
      cases h
      exact hq

/-- An aggregate other than a count is taken of the first column, of which there may be none. -/
theorem aggregate_grounded {aggregate : PlanAggregate} (ha : plan.aggregate = some aggregate)
    {q : Query} (hq : q.Obeys (.grounded plan.Blames)) :
    (q.aggregate aggregate.func).Obeys (.grounded plan.Blames) := by
  refine .select hq (List.forall_mem_singleton.2 (RowTerm.exprs_groundedStage ?_ (by simp))) (by simp)
  refine List.forall_mem_singleton.2 ?_
  cases hfunc : aggregate.func with
  | count => exact .countStar
  | _ => exact .aggregate (.field .slot (.noFirstColumn ha (by simp [hfunc])))

/-- The query of a plan is made of grounded clauses, each in its place. -/
theorem build_grounded {planned : Planned} (h : plan.build = .ok planned) :
    planned.query.Obeys (.grounded plan.Blames) ∧ planned.query.Whole := by
  refine build_induction (I := fun q => q.Obeys (.grounded plan.Blames) ∧ q.Whole) ?_ ?_ ?_ ?_ h
  · intro start hstart
    refine ⟨.table fun hnil => .noOutputs (.inr ?_), trivial⟩
    unfold Plan.table at hstart
    split at hstart
    · next columns hlookup =>
        cases hstart
        rw [columnsOf, hlookup]
        exact hnil
    · cases hstart
  · intro step hstep q q' hq happly
    exact ⟨apply_grounded hstep hq.1 happly, apply_whole hq.2 happly⟩
  · intro aggregate ha column hcolumn q hq
    have hcolumn : plan.aggregate.bind (·.column) = some column :=
      Option.bind_eq_some_iff.2 ⟨aggregate, ha, hcolumn⟩
    have hname : column ∈ plan.names := List.mem_append_right _ (Option.mem_toList.2 hcolumn)
    refine ⟨.select hq.1 (List.forall_mem_singleton.2 ?_) (by simp), hq.2⟩
    refine ⟨.expr (ExprTerm.resolve_grounded (.unknownColumn hname)), fun scope => ?_⟩
    refine Build.Returns.bind (P := fun _ => True) (fun _ => trivial) fun e _ => .pure ?_
    exact fun hnil => absurd hnil (List.cons_ne_nil e [])
  · intro aggregate ha q hq
    exact ⟨aggregate_grounded ha hq.1, hq.2⟩

end Plan

/-! ## Compiled plans -/

/-- A plan that describes a query is compiled, or it is to blame itself: for a column that is not found,
for a list, a grouping or a selection of nothing.  No order of steps makes it fail for anything else. -/
theorem compilePlanned_orBlames {plan : Plan} {planned : Plan.Planned}
    (hbuild : plan.build = .ok planned) (d : Dialect) :
    (∃ c, CommandLine.compilePlanned d planned = .ok c) ∨
      ∃ e, CommandLine.compilePlanned d planned = .error e ∧ plan.Blames e := by
  obtain ⟨hobeys, hwhole⟩ := Plan.build_grounded hbuild
  have hquery := Query.compileText_delivers hobeys hwhole
  cases hrun : CommandLine.compilePlanned d planned with
  | ok c => exact .inl ⟨c, rfl⟩
  | error e =>
      refine .inr ⟨e, rfl, ?_⟩
      cases planned with
      | rows q => exact (hquery (.empty d)).start hrun
      | scalar q =>
          have hscalar : Delivers plan.Blames (.empty d) (fun _ _ => True) (q.compileText []) :=
            Delivers.get.bind fun _ _ _ _ => (Delivers.report _).bind fun ctx _ _ _ => hquery ctx
          exact hscalar.start hrun

/-- Customers by city, joined with those of the same city, of whom the oldest are looked at. -/
private def neighbours : Plan where
  tables := [("customers", ["City", "Age"])]
  start := "customers"
  steps :=
    [.orderBy [⟨"Age", true⟩], .groupBy ["City"], .join ⟨"customers", .inner, "City", "City"⟩,
      .filter ⟨"Age", .compare .gt, .int 60⟩, .groupBy ["Age", "customers.City"], .select ["Age"]]
  aggregate := none

/-- The same, with a grouping by nothing at the end. -/
private def keyless : Plan := { neighbours with steps := neighbours.steps ++ [.groupBy []] }

/-- The error of a plan that describes a query, if it has one. -/
private def errorOf (plan : Plan) : Option (Except CompileError Unit) :=
  plan.build.toOption.map fun planned => (CommandLine.compilePlanned .sqlite planned).map fun _ => ()

private theorem errorOf_neighbours : errorOf neighbours = some (.ok ()) := by decide +kernel

private theorem errorOf_keyless :
    errorOf keyless = some (.error (.unsupportedShape "GroupBy" "grouping without keys")) := by
  decide +kernel

/-- Grouped rows are joined, grouped once more and projected, and only the last step is at fault. -/
theorem compilePlanned_orBlames_keyless :
    (∃ planned c, neighbours.build = .ok planned ∧
      CommandLine.compilePlanned .sqlite planned = .ok c) ∧
    ∃ planned e, keyless.build = .ok planned ∧
      CommandLine.compilePlanned .sqlite planned = .error e ∧
      e = .unsupportedShape "GroupBy" "grouping without keys" ∧ keyless.Blames e := by
  obtain ⟨planned, hbuild, hok⟩ := Option.map_eq_some_iff.1 errorOf_neighbours
  obtain ⟨planned', hbuild', herror⟩ := Option.map_eq_some_iff.1 errorOf_keyless
  have hbuild := Except.eq_ok_of_toOption hbuild
  have hbuild' := Except.eq_ok_of_toOption hbuild'
  constructor
  · rcases compilePlanned_orBlames hbuild .sqlite with ⟨c, hc⟩ | ⟨e, he, -⟩
    · exact ⟨planned, c, hbuild, hc⟩
    · rw [he] at hok
      cases hok
  · rcases compilePlanned_orBlames hbuild' .sqlite with ⟨c, hc⟩ | ⟨e, he, hblames⟩
    · rw [hc] at herror
      cases herror
    · rw [he] at herror
      exact ⟨planned', e, hbuild', he, Except.error.inj herror, hblames⟩

end QueryCompiler
