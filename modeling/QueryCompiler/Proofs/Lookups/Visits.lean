import QueryCompiler.Proofs.Courses
import QueryCompiler.Proofs.Lookups.Compile

/-! # `QueryCompiler.Proofs.Lookups.Visits` — a failed lookup is never silent

A column that is not found becomes a node of its own, and so do a list without values and a column of
a table that is not read from.  Each is an error where it is written.  But not everything is written:
a node that is registered is written as a field, with all that is inside it left out, and this goes
for the outputs of every derived table.

Still, nothing of the kind gets by.  Wherever a compilation passes through, an inventory describes the
moment and has the nodes at hand.  So whatever is left out has been written before, and in the last
context nothing dangles in any expression of any clause.
-/

namespace QueryCompiler

open CompileM

/-! ## Visits -/

def Task.nodes : Task → List Expr
  | .block scope _ => Scope.leaves scope
  | .exprs es => es

section

variable {v : Inventory} {μ ν κ : Moment}

/-- Once the expressions in front of it are written, an expression is in the inventory still. -/
theorem Inventory.Stocks.behind {depth : Nat} {es es' : List Expr} {e : Expr} {us : List Sql.Scalar}
    (h : v.Stocks (es ++ e :: es') μ) (hes : WritesAll (compileWithin depth) es μ us κ) :
    ∃ v', v.Grows v' ∧ v'.Describes κ ∧ v'.has e := by
  obtain ⟨v₁, hv₁, hμ, hall⟩ := h
  obtain ⟨hbefore, he⟩ := List.forall_mem_append.1 hall
  obtain ⟨v₂, hv₂, hκ, -⟩ :=
    hes.sound (compileWithin_vouches depth) (compileWithin_evolves depth) hμ hbefore
  exact ⟨v₂, hv₁.trans hv₂, hκ, hv₂ (he e List.mem_cons_self)⟩

/-- What a visit opens is over nodes of the inventory. -/
theorem Visit.Opens.stocks {u w : Visit} (h : u.Opens w) (hu : v.Stocks u.task.nodes u.start) :
    v.Stocks w.task.nodes w.start := by
  cases h with
  | derived run _ =>
      obtain ⟨v₁, hv₁, hμ, hs⟩ := hu
      exact ⟨v₁, hv₁, (hμ.report run.entered_takes).deeper 1, hs⟩
  | @clause depth scope block es μ κ run hmem =>
      obtain ⟨v₁, hv₁, hμ, hs⟩ := hu
      have hsub := compileWithin_vouches depth
      have hevolves := compileWithin_evolves depth
      obtain ⟨v₂, hv₂, hopened, hr⟩ :=
        block.base.vouched hsub hevolves run.base_takes (hμ.report run.entered_takes) hs
      obtain ⟨hexpressions, -⟩ := run.vouched hsub hevolves hopened (hs.grow hv₂) hr
      exact (hexpressions _ hmem).of_grows (hv₁.trans hv₂)
  | operands hes _ ha _ =>
      obtain ⟨v', hv', hκ, he⟩ := hu.behind hes
      exact ⟨v', hv', hκ, (Inventory.hasAll_children he).subset ha.subset⟩
  | needle hes _ =>
      obtain ⟨v', hv', hκ, he⟩ := hu.behind hes
      exact ⟨v', hv', hκ, Inventory.hasAll_children he⟩
  | subquery hes _ hneedle hnormal _ =>
      obtain ⟨v₁, hv₁, hκ, he⟩ := hu.behind hes
      obtain ⟨v₂, hv₂, hξ, -⟩ := hneedle.sound (compileWithin_vouches _) (compileWithin_evolves _) hκ
        (Inventory.hasAll_children he _ List.mem_cons_self)
      exact ⟨v₂, hv₁.trans hv₂, (hξ.normalize hnormal).deeper 2,
        (Inventory.hasAll_captured he).grow hv₂⟩

theorem Visit.PassesThrough.stocks {u w : Visit} (h : u.PassesThrough w)
    (hu : v.Stocks u.task.nodes u.start) : v.Stocks w.task.nodes w.start := by
  induction h with
  | refl => exact hu
  | tail _ hopens ih => exact hopens.stocks ih

/-- Nothing dangles in the expressions that a visit passes through once it has ended. -/
theorem Visit.PassesThrough.sound {u w : Visit} {es : List Expr} (h : u.PassesThrough w)
    (hu : v.Stocks u.task.nodes u.start) (hends : u.Ends ν) (htask : w.task = .exprs es) :
    ∀ e ∈ es, e.Sound ν.context := by
  obtain ⟨ξ, hw, -, hξ⟩ := h.reaches.ends hends
  obtain ⟨v', -, hstart, hall⟩ := h.stocks hu
  obtain ⟨depth, task, start⟩ := w
  obtain rfl : task = .exprs es := htask
  obtain ⟨ts, hwrites⟩ := hw
  obtain ⟨-, -, -, hsound⟩ :=
    hwrites.sound (compileWithin_vouches depth) (compileWithin_evolves depth) hstart hall
  exact fun e he => (hsound e he).evolve hξ

end

/-! ## Statements that change rows -/

/-- The expressions that a column is set to, as far as they were built beforehand. -/
def Assigned.given : Assigned → List Expr
  | .computed _ => []
  | .fixed e => [e]

def Statement.given : Statement → List Expr
  | .delete _ => []
  | .update s => s.assignments.flatMap (·.2.given)
  | .insert s => s.values.map (·.2)

section

variable {sub : SubqueryCompiler} {scope : Scope} {μ ν : Moment} {v : Inventory}

theorem Assigned.nodesOn_lists (value : Assigned) {row : Row} (hs : v.HasAll (Scope.leaves scope))
    (hr : v.HasAll row.leaves) (hg : v.HasAll value.given) :
    Build.Lists v Inventory.HasAll (value.nodesOn scope row) := by
  cases value with
  | computed term => exact (term.eval_lists (hr.append hs)).bind fun _ _ _ he => .pure (.cons he .nil)
  | fixed e => exact .pure hg

theorem AssignmentsRun.vouched (hsub : sub.Vouches) (hevolves : sub.Evolves) {row : Row}
    {assignments : List (String × Assigned)} {written : List (List Expr × Moment)}
    (h : AssignmentsRun sub scope row assignments μ written ν) (hμ : v.Describes μ)
    (hs : v.HasAll (Scope.leaves scope)) (hr : v.HasAll row.leaves)
    (hg : v.HasAll (assignments.flatMap (·.2.given))) :
    (∀ p ∈ written, v.Stocks p.1 p.2) ∧ ∃ v', v.Grows v' ∧ v'.Describes ν := by
  induction h generalizing v with
  | nil => exact ⟨List.forall_mem_nil _, v, .refl v, hμ⟩
  | @cons column value rest μ written ν b _ ih =>
      rw [List.flatMap_cons] at hg
      obtain ⟨hvalue, hrest⟩ := List.forall_mem_append.1 hg
      obtain ⟨hstocks, v₁, hv₁, hstop, -, -⟩ :=
        b.vouched hsub hevolves hμ (value.nodesOn_lists hs hr hvalue)
      obtain ⟨hwritten, v₂, hv₂, hν⟩ :=
        ih hstop (hs.grow hv₁) (hr.grow hv₁) fun e he => hv₁ (hrest e he)
      refine ⟨List.forall_mem_cons.2 ⟨hstocks, fun p hp => ?_⟩, v₂, hv₁.trans hv₂, hν⟩
      exact (hwritten p hp).of_grows hv₁

theorem Statement.Runs.stocks (hsub : sub.Vouches) (hevolves : sub.Evolves) {st : Statement}
    {written : List (List Expr × Moment)} (h : st.Runs sub scope μ written ν) (hμ : v.Describes μ)
    (hs : v.HasAll (Scope.leaves scope)) (hg : v.HasAll st.given) :
    ∀ p ∈ written, v.Stocks p.1 p.2 := by
  cases h with
  | delete filter hrow =>
      obtain ⟨v₁, hv₁, hκ, hr⟩ := hμ.target hrow
      obtain ⟨hfilter, -⟩ := filter.vouched hsub hevolves hκ
        (ExprTerm.nodesOn_lists _ (hs.grow hv₁) hr)
      exact List.forall_mem_singleton.2 (hfilter.of_grows hv₁)
  | update filter hrow hassignments =>
      obtain ⟨v₁, hv₁, hκ, hr⟩ := hμ.target hrow
      obtain ⟨hwritten, v₂, hv₂, hξ⟩ :=
        hassignments.vouched hsub hevolves hκ (hs.grow hv₁) hr (hg.grow hv₁)
      obtain ⟨hfilter, -⟩ := filter.vouched hsub hevolves hξ
        (ExprTerm.nodesOn_lists _ ((hs.grow hv₁).grow hv₂) (hr.grow hv₂))
      refine List.forall_mem_append.2 ⟨fun p hp => (hwritten p hp).of_grows hv₁, ?_⟩
      exact List.forall_mem_singleton.2 (hfilter.of_grows (hv₁.trans hv₂))
  | @insert t values μ written ν hvalues =>
      have hgiven : v.HasAll ((values.map fun p => (p.1, Assigned.fixed p.2)).flatMap (·.2.given)) := by
        have hflat : (values.map fun p => (p.1, Assigned.fixed p.2)).flatMap (·.2.given) =
            values.map (·.2) :=
          List.flatMap_map .. |>.trans List.map_eq_flatMap.symm
        rw [hflat]
        exact hg
      exact (hvalues.vouched hsub hevolves hμ hs .nil hgiven).1

end

/-! ## Whole compilations -/

/-- A failed lookup is never silent.  The nodes that a compilation is given, those of its scope and of
the statement, are known by their identities, and the supply hands out no identity of theirs.  If a
query or a statement is compiled then, nothing dangles in the last context: no expression that a clause
builds contains at any depth a column that was not found, a list without values, or a column that was
never registered.  This goes for the clauses of every statement that the compilation passes through,
derived tables and subqueries included. -/
theorem compile_neverDangling (v : Inventory) (d : Dialect) (scope : Scope) (session : Session)
    (hsupply : session.supply = v.supply) (hscope : v.HasAll (Scope.leaves scope)) :
    (∀ (q : Query) (c : CompiledQuery), (compileQuery d scope q session).1 = .ok c →
      ∃ compiled last start, q.CompilesTo d scope session compiled last ∧
        c = ⟨compiled.select.render d 0, last.params⟩ ∧ q.Starts d scope session start ∧
        ∀ visit es, start.PassesThrough visit → visit.task = .exprs es →
          ∀ e ∈ es, ∀ n, e.Contains n → ¬ n.Dangling last) ∧
    (∀ (st : Statement) (c : CompiledQuery), v.HasAll st.given →
      (compileStatement d scope st session).1 = .ok c →
      ∃ μ written ν,
        (CompileM.report (.enteredStatement d st.kind)).Takes ⟨.empty d, session⟩ () μ ∧
        st.Runs (compileWithin (st.nesting scope)) scope μ written ν ∧
        c.params = ν.context.params ∧
        ∀ p ∈ written, ∀ visit es,
          Visit.PassesThrough ⟨st.nesting scope, .exprs p.1, p.2⟩ visit → visit.task = .exprs es →
            ∀ e ∈ es, ∀ n, e.Contains n → ¬ n.Dangling ν.context) := by
  have hempty : v.Describes ⟨.empty d, session⟩ := .empty hsupply
  constructor
  · intro q c hc
    obtain ⟨compiled, last, hrun, rfl⟩ := compileQuery_iff_compilesTo.1 hc
    obtain ⟨start, ν, hstart, hends, rfl⟩ := hrun.exists_starts
    refine ⟨compiled, _, start, hrun, rfl, hstart, fun visit es hpass htask => ?_⟩
    obtain ⟨_, κ, hreport, hnormal⟩ := takes_bind.1 hstart.takes
    obtain ⟨block, -, hblock⟩ := hstart.task_eq
    have hstocks : v.Stocks start.task.nodes start.start :=
      ⟨v, .refl v, (hempty.report hreport).normalize hnormal, hblock ▸ hscope⟩
    exact hpass.sound hstocks hends htask
  · intro st c hgiven hc
    obtain ⟨μ, written, ν, hreport, hruns, hparams⟩ := compileStatement_runs hc
    refine ⟨μ, written, ν, hreport, hruns, hparams, fun p hp visit es hpass htask => ?_⟩
    have hsub := compileWithin_vouches (st.nesting scope)
    have hevolves := compileWithin_evolves (st.nesting scope)
    have hstocks := hruns.stocks hsub hevolves (hempty.report hreport) hscope hgiven p hp
    obtain ⟨-, ts, ξ, hwrites, hξ⟩ := hruns.between hevolves p hp
    exact fun e he => (hpass.sound hstocks ⟨ts, hwrites⟩ htask e he).evolve hξ

/-- A limit that was built beforehand. -/
private def limit : Expr := .literal 0 (.int 10)

/-- The inventory of the limit alone; one identity is gone. -/
private def limitOnly : Inventory :=
  (Inventory.empty (.counting 0) fun m n h => by simpa [Supply.upcoming, Supply.counting] using h).add
    limit rfl (List.forall_mem_nil _)

private def limitScope : Scope := [.named "limit" (.expr limit)]

private def limitSession : Session := { supply := limitOnly.supply }

/-- Large orders, read from a table kept apart, with an item that is large itself. -/
private def largeOrders : Query :=
  .filter (.derived (.select (.table ⟨"orders", ["Id", "Total"]⟩) [.row] none))
    (.binary .and (.compare .gt (.named .row "Total") (.field (.get "limit") 0))
      (.inQuery (.named .row "Id")
        (.select (.filter (.table ⟨"items", ["OrderId", "Price"]⟩)
          (.compare .gt (.named .row "Price") (.field (.get "limit") 0)))
          [.exprs [.named .row "OrderId"]] none)))

/-- Large orders are set to the limit. -/
private def capOrders : Statement :=
  .update ⟨⟨"orders", ["Id", "Total"]⟩, [("Total", .fixed limit)],
    [.compare .gt (.named .row "Total") (.field (.get "limit") 0)]⟩

private theorem largeOrders_compiles :
    (compileQuery .sqlite limitScope largeOrders limitSession).1.toOption.isSome = true := by
  decide +kernel

private theorem capOrders_compiles :
    (compileStatement .sqlite limitScope capOrders limitSession).1.toOption.isSome = true := by
  decide +kernel

/-- One node is shared by the scope, the query and the statement. -/
theorem compile_neverDangling_largeOrders :
    limitSession.supply = limitOnly.supply ∧ limitOnly.HasAll (Scope.leaves limitScope) ∧
    limitOnly.HasAll capOrders.given ∧
    (∃ c compiled last start, (compileQuery .sqlite limitScope largeOrders limitSession).1 = .ok c ∧
      largeOrders.CompilesTo .sqlite limitScope limitSession compiled last ∧
      largeOrders.Starts .sqlite limitScope limitSession start ∧
      ∀ visit es, start.PassesThrough visit → visit.task = .exprs es →
        ∀ e ∈ es, ∀ n, e.Contains n → ¬ n.Dangling last) ∧
    (∃ c μ written ν, (compileStatement .sqlite limitScope capOrders limitSession).1 = .ok c ∧
      capOrders.Runs (compileWithin 0) limitScope μ written ν ∧
      ∀ p ∈ written, ∀ e ∈ p.1, ∀ n, e.Contains n → ¬ n.Dangling ν.context) := by
  have hlimit : limitOnly.HasAll [limit] := List.forall_mem_singleton.2 (.inr rfl)
  obtain ⟨hquery, hstatement⟩ :=
    compile_neverDangling limitOnly .sqlite limitScope limitSession rfl hlimit
  obtain ⟨c, hc⟩ := Option.isSome_iff_exists.1 largeOrders_compiles
  have hok := Except.eq_ok_of_toOption hc
  obtain ⟨c', hc'⟩ := Option.isSome_iff_exists.1 capOrders_compiles
  have hok' := Except.eq_ok_of_toOption hc'
  obtain ⟨compiled, last, start, hrun, -, hstart, hvisits⟩ := hquery largeOrders c hok
  obtain ⟨μ, written, ν, -, hruns, -, hwritten⟩ := hstatement capOrders c' hlimit hok'
  exact ⟨rfl, hlimit, hlimit, ⟨c, compiled, last, start, hok, hrun, hstart, hvisits⟩, c', μ, written,
    ν, hok', hruns, fun p hp => hwritten p hp _ p.1 .refl rfl⟩

end QueryCompiler
