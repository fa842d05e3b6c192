import QueryCompiler.Proofs.Courses
import QueryCompiler.Proofs.Lines.Labels
import QueryCompiler.Proofs.Redirection

/-! # `QueryCompiler.Proofs.Aliases` — how the sources of a statement are numbered

Every source of a statement gets an alias of its own: its base, the tables it joins, and the sources
of all the statements inside it, be they derived tables or subqueries.  The aliases come from one
counter, which is never put back, so a step of a compilation gives out the numbers between where it
finds the counter and where it leaves it.

    step                 numbers from n on
    ------------------------------------------------------------------------
    table                n
    derived table        those of its statement, then the next one
    join                 n, then those inside its two keys
    clause               those inside its expressions, first to last
    one after another    those of the first up to m, those of the second from m on

In the text of a statement the outputs come first, though they are compiled last; the aliases of the
whole text are a permutation of the numbers below the last counter, therefore, and not a list in
order.
-/

namespace QueryCompiler

open CompileM
open Context (aliasName aliasName_inj)

namespace Sql

/-! ## Numbers -/

/-- The base of a statement has a smaller number than the tables it joins, these are numbered in
order, and a derived table has a larger number than every source inside it. -/
def Select.InOrder (s : Select) : Prop :=
  ∃ n ns, s.source.label = aliasName n ∧ s.joins.map Join.label = ns.map aliasName ∧
    (n :: ns).Pairwise (· < ·) ∧ ∀ label ∈ labelsOf s.source.nested, ∃ k < n, label = aliasName k

/-- The aliases of the statements are the first `k`, each of them given to one source, and every
statement numbers its sources in order. -/
structure Numbered (k : Nat) (ss : List Select) : Prop where
  perm : (labelsOf ss).Perm ((List.range k).map aliasName)
  nodup : (labelsOf ss).Nodup
  inOrder : ∀ s ∈ ss, s.InOrder

/-- The labels are the aliases from number `n` up to number `m`, each of them once. -/
def Spans (n m : Nat) (labels : List String) : Prop :=
  ∃ count, n + count = m ∧ labels.Perm ((List.range' n count).map aliasName)

/-- The statements have the aliases from number `n` up to number `m`. -/
structure NumberedFrom (n m : Nat) (ss : List Select) : Prop where
  spans : Spans n m (labelsOf ss)
  inOrder : ∀ s ∈ ss, s.InOrder

/-- The joins, and the statements inside their keys, have the aliases from number `n` up to `m`. -/
structure JoinsNumberedFrom (n m : Nat) (joins : List Join) : Prop where
  spans : Spans n m (joins.map Join.label ++ labelsOf (Join.nestedAll joins))
  inOrder : ∀ s ∈ Join.nestedAll joins, s.InOrder
  increasing : ∃ ns : List Nat, joins.map Join.label = ns.map aliasName ∧ ns.Pairwise (· < ·) ∧
    ∀ k ∈ ns, n ≤ k

section

variable {n m k : Nat} {labels labels' : List String} {ss ss' : List Select}

theorem Spans.nil (n : Nat) : Spans n n [] := ⟨0, rfl, .refl _⟩

theorem Spans.one (n : Nat) : Spans n (n + 1) [aliasName n] := ⟨1, rfl, .refl _⟩

theorem Spans.append (h : Spans n m labels) (h' : Spans m k labels') :
    Spans n k (labels ++ labels') := by
  obtain ⟨count, rfl, hperm⟩ := h
  obtain ⟨count', rfl, hperm'⟩ := h'
  refine ⟨count + count', (Nat.add_assoc ..).symm, ?_⟩
  have hrange : List.range' n (count + count') =
      List.range' n count ++ List.range' (n + count) count' := by
    rw [List.range'_append_1]
  rw [hrange, List.map_append]
  exact hperm.append hperm'

theorem Spans.of_perm (h : Spans n m labels) (hperm : labels'.Perm labels) : Spans n m labels' := by
  obtain ⟨count, hm, h⟩ := h
  exact ⟨count, hm, hperm.trans h⟩

theorem Spans.mem_iff (h : Spans n m labels) {label : String} :
    label ∈ labels ↔ ∃ k, (n ≤ k ∧ k < m) ∧ label = aliasName k := by
  obtain ⟨count, rfl, hperm⟩ := h
  rw [hperm.mem_iff, List.mem_map]
  simp only [List.mem_range'_1, eq_comm]

theorem NumberedFrom.nil (n : Nat) : NumberedFrom n n [] := ⟨.nil n, List.forall_mem_nil _⟩

theorem NumberedFrom.append (h : NumberedFrom n m ss) (h' : NumberedFrom m k ss') :
    NumberedFrom n k (ss ++ ss') where
  spans := labelsOf_append ss ss' ▸ h.spans.append h'.spans
  inOrder := List.forall_mem_append.2 ⟨h.inOrder, h'.inOrder⟩

/-- From the first number on, this is what the aliases of a whole text are. -/
theorem NumberedFrom.numbered (h : NumberedFrom 0 k ss) : Numbered k ss := by
  obtain ⟨⟨count, hk, hperm⟩, hin⟩ := h
  obtain rfl : count = k := (Nat.zero_add count).symm.trans hk
  rw [← List.range_eq_range'] at hperm
  refine ⟨hperm, hperm.nodup_iff.2 ?_, hin⟩
  exact List.pairwise_map.2 (List.nodup_range.imp fun hne h => hne (aliasName_inj.1 h))

theorem JoinsNumberedFrom.nil (n : Nat) : JoinsNumberedFrom n n [] :=
  ⟨.nil n, List.forall_mem_nil _, [], rfl, .nil, List.forall_mem_nil _⟩

/-- A join takes a number, and its keys the next ones. -/
theorem JoinsNumberedFrom.cons {join : Join} {joins : List Join} {j : Nat}
    (hlabel : join.label = aliasName n) (hkeys : NumberedFrom (n + 1) j (Join.nestedAll [join]))
    (hjoins : JoinsNumberedFrom j m joins) : JoinsNumberedFrom n m (join :: joins) := by
  obtain ⟨kind, table, label, outer, inner⟩ := join
  subst hlabel
  have hnested : Join.nestedAll (.mk kind table (aliasName n) outer inner :: joins) =
      Join.nestedAll [.mk kind table (aliasName n) outer inner] ++ Join.nestedAll joins := by
    simp [Join.nestedAll]
  have hj : n < j := by
    obtain ⟨count, hcount, -⟩ := hkeys.spans
    omega
  obtain ⟨ns, hns, hpairwise, hle⟩ := hjoins.increasing
  refine ⟨?_, ?_, n :: ns, congrArg (aliasName n :: ·) hns, ?_, ?_⟩
  · refine (((Spans.one n).append hkeys.spans).append hjoins.spans).of_perm ?_
    rw [hnested, labelsOf_append]
    refine List.perm_iff_count.2 fun label => ?_
    simp only [List.map_cons, Join.label, List.cons_append, List.count_cons, List.count_append,
      List.count_nil]
    omega
  · rw [hnested]
    exact List.forall_mem_append.2 ⟨hkeys.inOrder, hjoins.inOrder⟩
  · exact List.pairwise_cons.2 ⟨fun i hi => Nat.lt_of_lt_of_le hj (hle i hi), hpairwise⟩
  · exact List.forall_mem_cons.2
      ⟨Nat.le_refl _, fun i hi => Nat.le_trans (Nat.le_of_lt hj) (hle i hi)⟩

end

end Sql

open Sql (NumberedFrom JoinsNumberedFrom)

/-! ## Expressions -/

/-- How many aliases have been given out. -/
def Moment.counter (μ : Moment) : Nat := μ.context.nextAlias

theorem Moment.counter_deeper (μ : Moment) (levels : Nat) :
    (μ.deeper levels).counter = μ.counter := rfl

/-- Statements of subqueries have the aliases that are given out while they are compiled. -/
def SubqueryCompiler.Numbers (sub : SubqueryCompiler) : Prop :=
  ∀ {q scope μ select ν}, (sub q scope).Takes μ select ν →
    NumberedFrom μ.counter ν.counter select.nested

section

variable {sub : SubqueryCompiler} {scope : Scope} {μ ν : Moment}

theorem counter_build {α : Type} {b : Build α} {a : α} (h : (CompileM.build b).Takes μ a ν) :
    ν.counter = μ.counter :=
  congrArg Context.nextAlias (takes_build.1 h).2.1.symm

theorem counter_normalize {q normal : Query} (h : (CompileM.normalize q).Takes μ normal ν) :
    ν.counter = μ.counter := by
  obtain ⟨trace, hn⟩ := outcome_normalize q μ.context μ.session
  have hn : (CompileM.normalize q).Takes μ q.normalize ⟨μ.context, { μ.session with trace := trace }⟩ :=
    hn
  rw [(h.unique hn).2]
  rfl

/-- Further in the counter runs on, and it is not put back. -/
theorem counter_indented {α : Type} {levels : Nat} {m : CompileM α} {a : α}
    (h : (CompileM.indented levels m).Takes μ a ν) :
    ∃ κ, m.Takes (μ.deeper levels) a κ ∧ κ.counter = ν.counter := by
  obtain ⟨ctx, hm, hν⟩ := indented_eq_ok.1 h
  refine ⟨⟨ctx, ν.session⟩, hm, ?_⟩
  rw [Moment.counter, Moment.counter, ← hν]

/-- A written expression has the statements of its written operands inside it. -/
theorem Expr.Assembles.nested_eq {e : Expr} {es : List Expr} {ts : List Sql.Scalar} {t : Sql.Scalar}
    (h : e.Assembles es ts t) : t.nested = Sql.Scalar.nestedAll ts := by
  cases h <;> simp [Sql.Scalar.nested, Sql.Scalar.nestedAll]

mutual

/-- An expression gives out the aliases of the statements inside its written form. -/
theorem Writes.numbers (hsub : sub.Numbers) : ∀ {e : Expr} {μ : Moment} {t : Sql.Scalar}
    {ν : Moment}, Writes sub e μ t ν → NumberedFrom μ.counter ν.counter t.nested
  | _, μ, _, _, .registered _ | _, μ, _, _, .bound _ _ => .nil μ.counter
  | _, _, _, _, .assembled _ ha hes => ha.nested_eq ▸ hes.numbers hsub
  | _, _, _, _, .subquery _ hneedle hnormal hselect _ => by
      obtain ⟨κ, hselect, hκ⟩ := counter_indented hselect
      have hinner := hsub hselect
      rw [hκ, Moment.counter_deeper, counter_normalize hnormal] at hinner
      exact (hneedle.numbers hsub).append hinner

theorem WritesAll.numbers (hsub : sub.Numbers) : ∀ {es : List Expr} {μ : Moment}
    {ts : List Sql.Scalar} {ν : Moment}, WritesAll sub es μ ts ν →
      NumberedFrom μ.counter ν.counter (Sql.Scalar.nestedAll ts)
  | _, μ, _, _, .nil => .nil μ.counter
  | _, _, _, _, .cons he hes => (he.numbers hsub).append (hes.numbers hsub)

end

theorem Batch.numbers (hsub : sub.Numbers) {build : Build (List Expr)} (b : Batch sub build μ) :
    NumberedFrom μ.counter b.stop.counter (Sql.Scalar.nestedAll b.texts) :=
  counter_build b.built ▸ b.writes.numbers hsub

/-! ## Statements -/

theorem compileTable_counter {t : Table} {r : Sql.Source × Row} (h : (compileTable t).Takes μ r ν) :
    r.1 = .table t.name (aliasName μ.counter) ∧ ν.counter = μ.counter + 1 := by
  simp only [compileTable, takes_bind, takes_pure] at h
  obtain ⟨columns, κ, hcolumns, label, ξ, hlabel, _, _, hregister, rfl, rfl⟩ := h
  obtain ⟨rfl, hξ, -⟩ := takeAlias_eq_ok.1 hlabel
  obtain ⟨hζ, -⟩ := registerAll_eq_ok.1 hregister
  have hκ := counter_build hcolumns
  refine ⟨congrArg (fun n => Sql.Source.table t.name (aliasName n)) hκ, ?_⟩
  rw [Moment.counter, ← hζ, Context.nextAlias_registerAll, ← hξ, ← hκ]
  rfl

theorem compileDerived_counter {inner : Compiled} {r : Sql.Source × Row}
    (h : (compileDerived inner).Takes μ r ν) :
    r.1 = .derived inner.select (aliasName μ.counter) ∧ ν.counter = μ.counter + 1 := by
  simp only [compileDerived, takes_bind, takes_pure] at h
  obtain ⟨label, ξ, hlabel, _, _, hregister, rfl, rfl⟩ := h
  obtain ⟨rfl, hξ, -⟩ := takeAlias_eq_ok.1 hlabel
  obtain ⟨hζ, -⟩ := registerAll_eq_ok.1 hregister
  refine ⟨rfl, ?_⟩
  rw [Moment.counter, ← hζ, Context.nextAlias_registerAll, ← hξ]
  rfl

theorem JoinsRun.numbers (hsub : sub.Numbers) {joins : List JoinTerm} {row row' : Row}
    {keys : List (List Expr × Moment)} {sqls : List Sql.Join}
    (h : JoinsRun sub scope joins row μ keys sqls row' ν) :
    JoinsNumberedFrom μ.counter ν.counter sqls := by
  induction h with
  | nil => exact .nil _
  | cons outerKey innerKey htable houter hinner hpaired _ ih =>
      obtain ⟨hsource, hcounter⟩ := compileTable_counter htable
      have hkeys := (outerKey.numbers hsub).append (innerKey.numbers hsub)
      rw [houter, hinner, hcounter] at hkeys
      refine .cons (Sql.Source.table.inj hsource).2 ?_ ih
      rw [counter_build hpaired]
      simpa [Sql.Join.nestedAll, Sql.Scalar.nestedAll] using hkeys

/-- The base of a statement takes the first number behind those inside it. -/
theorem Sql.Select.numberedFrom {s : Sql.Select} {n b j f k h o m : Nat}
    (hbase : NumberedFrom n b s.source.nested) (hlabel : s.source.label = aliasName b)
    (hjoins : JoinsNumberedFrom (b + 1) j s.joins)
    (hfilter : NumberedFrom j f (Sql.Scalar.nestedAll s.filter.toList))
    (hkeys : NumberedFrom f k (Sql.Scalar.nestedAll s.keys))
    (hhaving : NumberedFrom k h (Sql.Scalar.nestedAll s.having.toList))
    (horder : NumberedFrom h o (Sql.Scalar.nestedAll (s.order.map (·.key))))
    (houtputs : NumberedFrom o m (Sql.Scalar.nestedAll (s.outputs.map (·.value)))) :
    NumberedFrom n m s.nested := by
  obtain ⟨outputs, source, joins, filter, keys, having, order⟩ := s
  simp only [Sql.Select.source, Sql.Select.joins, Sql.Select.filter, Sql.Select.keys,
    Sql.Select.having, Sql.Select.order, Sql.Select.outputs] at *
  obtain ⟨ns, hns, hpairwise, hle⟩ := hjoins.increasing
  have hown : Sql.Select.InOrder (.mk outputs source joins filter keys having order) := by
    refine ⟨b, ns, hlabel, hns, List.pairwise_cons.2 ⟨hle, hpairwise⟩, fun label hl => ?_⟩
    obtain ⟨k, ⟨-, hk⟩, rfl⟩ := hbase.spans.mem_iff.1 hl
    exact ⟨k, hk, rfl⟩
  have hrest := ((hfilter.append hkeys).append hhaving).append (horder.append houtputs)
  rw [Sql.Select.nested, Sql.Output.nestedAll_eq, Sql.OrderItem.nestedAll_eq,
    Sql.Scalar.nestedOption_eq, Sql.Scalar.nestedOption_eq]
  constructor
  · have hspans := (hbase.spans.append (.one b)).append (hjoins.spans.append hrest.spans)
    refine hspans.of_perm (List.perm_iff_count.2 fun label => ?_)
    simp only [Sql.labelsOf, Sql.Select.labels, hlabel, List.flatMap_cons, List.flatMap_append,
      List.cons_append, List.count_cons, List.count_append, List.count_nil]
    omega
  · have hinner := hrest.inOrder
    simp only [List.forall_mem_append] at hinner
    simp only [List.forall_mem_cons, List.forall_mem_append]
    exact ⟨hown, hinner.2.2, hbase.inOrder, hjoins.inOrder, hinner.1.1.1, hinner.1.1.2, hinner.1.2,
      hinner.2.1⟩

mutual

/-- A statement gives out the aliases of its sources and of those inside it. -/
theorem Block.numbers (hsub : sub.Numbers) : ∀ (block : Block) {compiled : Compiled} {μ ν : Moment},
    (block.compile sub scope).Takes μ compiled ν →
      NumberedFrom μ.counter ν.counter compiled.select.nested
  | .mk body clauses base stages aliases, _, μ, _, h => by
      obtain ⟨run, rfl, rfl⟩ := exists_statementRun h
      obtain ⟨b, hlabel, hopened, hbase⟩ := Base.numbers hsub base run.base_takes
      have hentered : run.entered.counter = μ.counter :=
        congrArg Context.nextAlias run.entered_eq.symm
      have hstop : run.stop.counter = run.outputs.stop.counter :=
        congrArg Context.nextAlias run.stop_eq
      rw [hstop, ← hentered]
      rw [← run.source_eq] at hlabel hbase
      refine Sql.Select.numberedFrom hbase hlabel (hopened ▸ run.joins_run.numbers hsub)
        (f := run.filter.stop.counter) (k := run.keys.stop.counter)
        (h := run.having.stop.counter) (o := run.order.stop.counter) ?_ ?_ ?_ ?_ ?_
      · exact run.filter_eq ▸ run.filter.numbers hsub
      · exact run.keys_eq ▸ run.keys.numbers hsub
      · exact run.having_eq ▸ run.having.numbers hsub
      · exact run.order_eq ▸ run.order.numbers hsub
      · exact run.outputs_eq ▸ run.outputs.numbers hsub

/-- What a statement reads from takes the last of the numbers that are given out for it. -/
theorem Base.numbers (hsub : sub.Numbers) : ∀ (base : Base) {μ ν : Moment} {r : Sql.Source × Row},
    (base.compile sub scope).Takes μ r ν →
      ∃ n, r.1.label = aliasName n ∧ ν.counter = n + 1 ∧ NumberedFrom μ.counter n r.1.nested
  | .table t, μ, _, r, h => by
      obtain ⟨hsource, hcounter⟩ := compileTable_counter h
      exact ⟨μ.counter, by rw [hsource]; rfl, hcounter, by rw [hsource]; exact .nil _⟩
  | .derived block, μ, _, r, h => by
      rw [Base.compile, takes_bind] at h
      obtain ⟨inner, κ, hinner, hderived⟩ := h
      obtain ⟨ξ, hblock, hξ⟩ := counter_indented hinner
      obtain ⟨hsource, hcounter⟩ := compileDerived_counter hderived
      refine ⟨κ.counter, by rw [hsource]; rfl, hcounter, ?_⟩
      rw [hsource, ← hξ, ← μ.counter_deeper 1]
      exact Block.numbers hsub block hblock
  | .strayHaving _, _, _, _, h => (takes_throw.1 h).elim

end

theorem Query.numbers (hsub : sub.Numbers) {q : Query} {compiled : Compiled}
    (h : (q.compile sub scope).Takes μ compiled ν) :
    NumberedFrom μ.counter ν.counter compiled.select.nested := by
  obtain ⟨block, -, hblock⟩ := Query.takes_compile.1 h
  exact block.numbers hsub hblock

theorem compileWithin_numbers : ∀ depth : Nat, (compileWithin depth).Numbers
  | 0 => fun h => (takes_throw.1 h).elim
  | depth + 1 => fun h => by
      obtain ⟨compiled, hcompiled, rfl⟩ := takes_compileWithin_succ.1 h
      exact Query.numbers (compileWithin_numbers depth) hcompiled

/-! ## Statements that change rows -/

theorem compileTarget_counter {t : Table} {row : Row} (h : (compileTarget t).Takes μ row ν) :
    ν.counter = μ.counter := by
  simp only [compileTarget, takes_bind, takes_pure] at h
  obtain ⟨columns, κ, hcolumns, _, _, hregister, rfl, rfl⟩ := h
  obtain ⟨hξ, -⟩ := registerAll_eq_ok.1 hregister
  rw [Moment.counter, ← hξ, Context.nextAlias_registerAll]
  exact counter_build hcolumns

theorem compileCondition_numbers (hsub : sub.Numbers) {predicate : Option ExprTerm} {row : Row}
    {r : Option Sql.Scalar} (h : (compileCondition sub scope predicate row).Takes μ r ν) :
    NumberedFrom μ.counter ν.counter (Sql.Scalar.nestedOption r) := by
  obtain ⟨b, hr, rfl⟩ := exists_batch_of_condition h
  rw [Sql.Scalar.nestedOption_eq, hr]
  exact b.numbers hsub

theorem compileAssignments_numbers (hsub : sub.Numbers) {t : Table} {row : Row} :
    ∀ {assignments : List (String × Assigned)} {μ ν : Moment} {r : List (String × Sql.Scalar)},
      (compileAssignments sub scope t row assignments).Takes μ r ν →
        NumberedFrom μ.counter ν.counter (Sql.Scalar.nestedAll (r.map (·.2)))
  | [], μ, _, _, h => by
      obtain ⟨rfl, rfl⟩ := takes_pure.1 h
      exact .nil _
  | (column, value) :: rest, _, _, _, h => by
      simp only [compileAssignments, takes_bind, takes_pure] at h
      obtain ⟨_, _, hcolumn, e, κ, he, sql, ξ, hsql, sqls, _, hrest, rfl, rfl⟩ := h
      obtain rfl := takes_requireColumn hcolumn
      have hvalue := counter_build he ▸ (e.writes hsql).numbers hsub
      exact hvalue.append (compileAssignments_numbers hsub hrest)

/-- A statement that changes rows gives no alias to its table. -/
theorem Statement.numbers (hsub : sub.Numbers) {st : Statement} {change : Sql.Change}
    (h : (st.compile sub scope).Takes μ change ν) :
    NumberedFrom μ.counter ν.counter change.nested := by
  cases st with
  | delete s =>
      simp only [Statement.compile, Delete.compile, takes_bind, takes_pure] at h
      obtain ⟨row, κ, hrow, _, _, hfilter, rfl, rfl⟩ := h
      exact compileTarget_counter hrow ▸ compileCondition_numbers hsub hfilter
  | update s =>
      simp only [Statement.compile, Update.compile] at h
      split at h
      · exact (takes_throw.1 h).elim
      · simp only [takes_bind, takes_pure] at h
        obtain ⟨row, κ, hrow, _, ξ, hassignments, _, _, hfilter, rfl, rfl⟩ := h
        have hassigned := compileTarget_counter hrow ▸ compileAssignments_numbers hsub hassignments
        exact hassigned.append (compileCondition_numbers hsub hfilter)
  | insert s =>
      simp only [Statement.compile, Insert.compile] at h
      split at h
      · exact (takes_throw.1 h).elim
      · simp only [takes_bind, takes_pure] at h
        obtain ⟨values, _, hvalues, rfl, rfl⟩ := h
        exact compileAssignments_numbers hsub hvalues

end

/-! ## Whole compilations -/

theorem Query.CompilesTo.numbered {d : Dialect} {scope : Scope} {session : Session} {q : Query}
    {compiled : Compiled} {last : Context} (h : q.CompilesTo d scope session compiled last) :
    Sql.Numbered last.nextAlias compiled.select.nested := by
  obtain ⟨μ, ν, hμ, hcompiled, rfl⟩ := Query.compilesTo_iff.1 h
  obtain ⟨_, κ, hreport, hnormal⟩ := takes_bind.1 hμ
  have hzero : μ.counter = 0 := by
    rw [counter_normalize hnormal, Moment.counter, ← (report_eq_ok.1 hreport).1]
    rfl
  exact (hzero ▸ Query.numbers (compileWithin_numbers _) hcompiled).numbered

private def ids (t : Table) (column : String) : Query :=
  .select (.table t) [.exprs [.named .row column]] none

end QueryCompiler
