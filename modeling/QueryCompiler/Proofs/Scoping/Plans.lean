import QueryCompiler.CommandLine.Run
import QueryCompiler.Proofs.Scoping.Compile

/-! # `QueryCompiler.Proofs.Scoping.Plans` — plans without grouping are scoped

The query of a plan without a grouping step is plain, whatever joins, conditions, orderings and
selections it strings together and in whatever order, with or without an aggregate on top.  So every
statement that the plan is compiled to, the outermost one and each derived table, reads nothing but
declared columns of the tables that it names itself and output columns of the derived table that it
reads from.
-/

namespace QueryCompiler

open CompileM (outcome)

/-! ## The query of a plan -/

namespace Plan

def columnsOf (plan : Plan) (name : String) : List String := (plan.tables.lookup name).getD []

def Planned.query : Planned → Query
  | .rows q => q
  | .scalar q => q.toQuery

end Plan

theorem ExprTerm.resolve_plain (name : String) : (ExprTerm.resolve name).Plain := by
  unfold ExprTerm.resolve
  split
  · exact .qualified .slot
  · exact .named .slot

theorem ExprTerm.ofValue_plain (v : Value) : (ExprTerm.ofValue v).Plain := by
  unfold ExprTerm.ofValue
  split
  · exact .null
  · exact .literal

theorem RowTerm.exprs_plain {es : List ExprTerm} (h : ∀ e ∈ es, e.Plain) :
    (RowTerm.exprs es).Plain :=
  .tuple (List.forall_mem_map.2 fun e he => .expr (h e he))

namespace Plan

variable {plan : Plan}

theorem table_declared {name : String} {t : Table} (h : plan.table name = .ok t) :
    t.columns ⊆ plan.columnsOf t.name := by
  unfold Plan.table at h
  split at h
  · next columns hlookup =>
      cases h
      rw [columnsOf, hlookup]
      exact List.Subset.refl _
  · cases h

/-- The query of a plan comes from the table it starts with by the steps, one after the other, and by
the column and the aggregate if there are such. -/
theorem build_induction {I : Query → Prop}
    (table : ∀ start, plan.table plan.start = .ok start → I (.table start))
    (step : ∀ step ∈ plan.steps, ∀ q q', I q → plan.apply q step = .ok q' → I q')
    (column : ∀ aggregate ∈ plan.aggregate, ∀ column ∈ aggregate.column, ∀ q, I q →
      I (.select q [.expr (.resolve column)] none))
    (aggregate : ∀ aggregate ∈ plan.aggregate, ∀ q, I q → I (q.aggregate aggregate.func))
    {planned : Planned} (h : plan.build = .ok planned) : I planned.query := by
  have hfold : ∀ {steps : List Step} {q q' : Query}, steps ⊆ plan.steps → I q →
      steps.foldlM plan.apply q = .ok q' → I q' := by
    intro steps
    induction steps with
    | nil =>
        intro q q' _ hq h
        cases h
        exact hq
    | cons first steps ih =>
        intro q q' hsteps hq h
        obtain ⟨q₁, hq₁, h⟩ := Except.bind_eq_ok h
        obtain ⟨hfirst, hsteps⟩ := List.cons_subset.1 hsteps
        exact ih hsteps (step first hfirst q q₁ hq hq₁) h
  obtain ⟨start, hstart, h⟩ := Except.bind_eq_ok h
  obtain ⟨q, hq, h⟩ := Except.bind_eq_ok h
  have hrows : I q := hfold (List.Subset.refl _) (table start hstart) hq
  cases ha : plan.aggregate with
  | none =>
      rw [ha] at h
      cases h
      exact hrows
  | some func =>
      rw [ha] at h
      cases h
      refine aggregate func ha _ ?_
      cases hc : func.column with
      | none => exact hrows
      | some name => exact column func ha name hc q hrows

theorem predicate_plain {condition : Condition} {p : ExprTerm} (h : predicate condition = .ok p) :
    p.Plain := by
  have hs := ExprTerm.resolve_plain condition.column
  unfold predicate at h
  split at h
  · obtain ⟨values, -, h⟩ := Except.bind_eq_ok h
    cases h
    exact .inList hs (List.forall_mem_map.2 fun v _ => ExprTerm.ofValue_plain v)
  · cases h
  · cases h
    exact .compare hs .null
  · cases h
    exact .compare hs .null
  · obtain ⟨v, -, h⟩ := Except.bind_eq_ok h
    cases h
    exact .compare hs (ExprTerm.ofValue_plain v)
  · obtain ⟨v, -, h⟩ := Except.bind_eq_ok h
    cases h
    exact .like hs (ExprTerm.ofValue_plain v)

/-- A step other than a grouping keeps a query plain. -/
theorem apply_obeys {q q' : Query} {step : Step} (hstep : ∀ columns, step ≠ .groupBy columns)
    (hq : q.Obeys (.plain plan.columnsOf)) (h : plan.apply q step = .ok q') :
    q'.Obeys (.plain plan.columnsOf) := by
  cases step with
  | join join =>
      obtain ⟨term, hterm, h⟩ := Except.bind_eq_ok h
      obtain ⟨t, ht, hterm⟩ := Except.bind_eq_ok hterm
      cases h
      cases hterm
      refine .join hq (List.forall_mem_singleton.2 ⟨table_declared ht, ?_⟩)
      refine ⟨ExprTerm.resolve_plain _, ExprTerm.resolve_plain _, .tuple ?_⟩
      exact List.forall_mem_cons.2 ⟨.slot, List.forall_mem_singleton.2 .slot⟩
  | filter condition =>
      obtain ⟨p, hp, h⟩ := Except.bind_eq_ok h
      cases h
      exact .filter hq (predicate_plain hp)
  | groupBy columns => exact absurd rfl (hstep columns)
  | orderBy keys =>
      cases h
      exact .orderBy hq (List.forall_mem_map.2 fun key _ => ExprTerm.resolve_plain _)
  | select columns =>
      cases h
      refine .select hq (List.forall_mem_singleton.2 (RowTerm.exprs_plain ?_)) (by simp)
      exact List.forall_mem_map.2 fun column _ => ExprTerm.resolve_plain column

theorem aggregate_obeys {q : Query} (hq : q.Obeys (.plain plan.columnsOf)) (func : AggregateFunc) :
    (q.aggregate func).Obeys (.plain plan.columnsOf) := by
  refine .select hq (List.forall_mem_singleton.2 (RowTerm.exprs_plain ?_)) (by simp)
  refine List.forall_mem_singleton.2 ?_
  cases func with
  | count => exact .countStar
  | _ => exact .aggregate (.field .slot)

/-- The query of a plan without grouping is plain. -/
theorem build_obeys (hsteps : ∀ columns, Step.groupBy columns ∉ plan.steps) {planned : Planned}
    (h : plan.build = .ok planned) : planned.query.Obeys (.plain plan.columnsOf) := by
  refine build_induction (I := Query.Obeys (.plain plan.columnsOf)) ?_ ?_ ?_ ?_ h
  · intro start hstart
    exact .table (table_declared hstart)
  · intro step hstep q q' hq happly
    exact apply_obeys (fun columns he => hsteps columns (he ▸ hstep)) hq happly
  · intro aggregate _ column _ q hq
    refine .select hq (List.forall_mem_singleton.2 ?_) (by simp)
    exact .expr (ExprTerm.resolve_plain column)
  · intro aggregate _ q hq
    exact aggregate_obeys hq aggregate.func

end Plan

/-! ## Compiled plans -/

theorem compilePlanned_eq_ok {d : Dialect} {planned : Plan.Planned} {c : CompiledQuery}
    (h : CommandLine.compilePlanned d planned = .ok c) :
    ∃ s : Session, s.supply = .counting 0 ∧ (compileQuery d [] planned.query s).1 = .ok c := by
  cases planned with
  | rows q => exact ⟨{}, rfl, h⟩
  | scalar q => exact compileScalar_eq_ok h

/-- A plan without grouping is compiled to statements that read only what the sources they name
themselves offer: declared columns of a table, output columns of a derived table. -/
theorem compilePlanned_scoped {plan : Plan} (hsteps : ∀ columns, Step.groupBy columns ∉ plan.steps)
    {planned : Plan.Planned} (hbuild : plan.build = .ok planned) {d : Dialect} {c : CompiledQuery}
    (hc : CommandLine.compilePlanned d planned = .ok c) :
    ∃ compiled ctx s s',
      outcome (planned.query.normalize.compileIn []) (.empty d) s = (.ok (compiled, ctx), s') ∧
      c.sql = compiled.select.render d 0 ∧ compiled.select.Scoped plan.columnsOf := by
  obtain ⟨session, hsession, hquery⟩ := compilePlanned_eq_ok hc
  obtain ⟨compiled, ctx, s, s', hok, hs, rfl⟩ := compileQuery_eq_ok hquery
  have hinjective : Function.Injective s.supply.ids := by
    rw [hs, hsession]
    exact fun _ _ h => Nat.add_left_cancel h
  have hstart : (Ledger.start s.supply hinjective).Describes (.empty d) s := ⟨rfl, rfl⟩
  obtain ⟨l, -, hscoped⟩ :=
    Query.compile_scoped (Plan.build_obeys hsteps hbuild).normalize hstart hok
  exact ⟨compiled, ctx, s, s', hok, rfl, hscoped.select⟩

/-- Users with those they were referred by, of whom some are joined again. -/
private def referrals : Plan where
  tables := [("Users", ["Id", "Name", "RefId"])]
  start := "Users"
  steps :=
    [.join ⟨"Users", .left, "RefId", "Id"⟩, .filter ⟨"Name", .like, .str "A%"⟩,
      .join ⟨"Users", .inner, "Id", "RefId"⟩, .select ["Id", "Users.Name"]]
  aggregate := none

private def referralsText : String :=
  "SELECT\n    a2.UserId AS UserId,\n    a2.UserName AS UserName\nFROM (\n" ++
  "    SELECT\n        a0.Id AS UserId,\n        a0.Name AS UserName,\n" ++
  "        a0.RefId AS UserRefId,\n        a1.Id AS UserId1,\n" ++
  "        a1.Name AS UserName1,\n        a1.RefId AS UserRefId1\n    FROM\n" ++
  "        Users a0\n        LEFT JOIN Users a1 ON a0.RefId = a1.Id\n    WHERE\n" ++
  "        a0.Name LIKE :p0\n) a2\n    INNER JOIN Users a3 ON a2.UserId = a3.RefId"

/-- The second join reads from a derived table, in which columns of one name have got others. -/
theorem compilePlanned_scoped_referrals :
    (∀ columns, Step.groupBy columns ∉ referrals.steps) ∧ ∃ planned c,
      referrals.build = .ok planned ∧ CommandLine.compilePlanned .sqlite planned = .ok c ∧
      c.sql = referralsText ∧
      ∃ compiled ctx s s',
        outcome (planned.query.normalize.compileIn []) (.empty .sqlite) s =
          (.ok (compiled, ctx), s') ∧
        c.sql = compiled.select.render .sqlite 0 ∧ compiled.select.Scoped referrals.columnsOf := by
  have hsteps : ∀ columns, Step.groupBy columns ∉ referrals.steps := by simp [referrals]
  have hrun : (referrals.build.toOption.bind fun planned =>
      (CommandLine.compilePlanned .sqlite planned).toOption.map (·.sql)) = some referralsText := by
    decide +kernel
  obtain ⟨planned, hplanned, hrun⟩ := Option.bind_eq_some_iff.1 hrun
  obtain ⟨c, hc, hsql⟩ := Option.map_eq_some_iff.1 hrun
  have hbuild := Except.eq_ok_of_toOption hplanned
  have hok := Except.eq_ok_of_toOption hc
  exact ⟨hsteps, planned, c, hbuild, hok, hsql, compilePlanned_scoped hsteps hbuild hok⟩

end QueryCompiler
