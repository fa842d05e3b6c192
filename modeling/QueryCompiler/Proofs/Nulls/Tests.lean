import QueryCompiler.Proofs.Nulls.Compile

/-! # `QueryCompiler.Proofs.Nulls.Tests` — a comparison with null is a test of the other operand

Where an operand of `=` or `!=` is null, the comparison is written as a test of the other one, and
nothing is bound but what that operand binds.  A node that is read from elsewhere should not count as
null, whatever it is made of: it is a field.  But the operands are looked at before it is asked
whether they are read from elsewhere.

    left      right                          written
    x         null                           x IS NULL
    null      x                              x IS NULL
    null      null, read as `a1.Proj0`       NULL IS NULL

In the last line the field should be tested.  This is the only case in which it is not the other
operand that is tested, as `TestsNull` says of every comparison that a compilation comes to.
-/

namespace QueryCompiler

open CompileM

/-- The expression is null, and it is not read from elsewhere. -/
def Expr.IsNullAt (e : Expr) (κ : Moment) : Prop :=
  e.isNullLiteral = true ∧ κ.referenceOf e.id = none

/-- The expression is null, but it is read from elsewhere. -/
def Expr.IsReadNull (e : Expr) (κ : Moment) : Prop :=
  e.isNullLiteral = true ∧ κ.referenceOf e.id ≠ none

/-- The comparison reads as a test of the subject: the text is the subject's with the test behind it,
and from the moment on the comparison binds what the subject does. -/
def ReadsAsTest (sub : SubqueryCompiler) (κ : Moment) (op : CompareOp) (comparison subject : Expr) :
    Prop :=
  ∃ t u ν, Writes sub subject κ t ν ∧ Writes sub comparison κ u ν ∧
    ∀ d level, u.render d level = Sql.bracket t.isAtomic (t.render d level) ++
      if op = .ne then " IS NOT NULL" else " IS NULL"

/-- How the comparison of two operands is written if one of them is null.  Null on the right leaves a
test of the left operand, even if it is read from elsewhere; null on the left leaves a test of the
right operand, unless that is null and read from elsewhere. -/
structure TestsNull (sub : SubqueryCompiler) (κ : Moment) (id : NodeId) (op : CompareOp)
    (left right : Expr) : Prop where
  of_right : right.isNullLiteral = true → ReadsAsTest sub κ op (.compare id op left right) left
  of_left : left.IsNullAt κ →
    (ReadsAsTest sub κ op (.compare id op left right) right ↔ ¬ right.IsReadNull κ)

section

variable {sub : SubqueryCompiler} {κ ν : Moment} {id : NodeId} {op : CompareOp} {left right : Expr}
  {u : Sql.Scalar}

/-! ## One comparison -/

theorem Expr.IsNullAt.writes {e : Expr} (h : e.IsNullAt κ) : Writes sub e κ .null κ := by
  obtain ⟨hnull, hid⟩ := h
  cases e with
  | null => exact .assembled hid .null .nil
  | literal => exact .assembled hid (.nullLiteral hnull) .nil
  | _ => cases hnull

theorem WritesAll.of_one {e : Expr} {t : Sql.Scalar} (h : WritesAll sub [e] κ [t] ν) :
    Writes sub e κ t ν := by
  cases h with
  | cons he hnil =>
      cases hnil
      exact he

/-- The test of an operand. -/
theorem ReadsAsTest.of_writes {comparison subject : Expr} {t : Sql.Scalar}
    (hop : op = .eq ∨ op = .ne) (hsubject : Writes sub subject κ t ν)
    (h : Writes sub comparison κ (.nullTest (op = .ne) t) ν) :
    ReadsAsTest sub κ op comparison subject := by
  refine ⟨t, _, ν, hsubject, h, fun d level => ?_⟩
  rcases hop with rfl | rfl <;> rfl

theorem CompareOp.nullTest?_eq (hop : op = .eq ∨ op = .ne) :
    op.nullTest? = some (decide (op = .ne)) := by
  rcases hop with rfl | rfl <;> rfl

variable (h : Writes sub (.compare id op left right) κ u ν) (hid : κ.referenceOf id = none)
  (hop : op = .eq ∨ op = .ne)

include h hid hop

/-- The right operand is looked at first: if it is null, the left one is tested. -/
theorem Writes.readsAsTest (hnull : left.isNullLiteral = true ∨ right.isNullLiteral = true) :
    ReadsAsTest sub κ op (.compare id op left right)
      (if right.isNullLiteral then left else right) := by
  have hwritten := h
  have htest := CompareOp.nullTest?_eq hop
  cases h with
  | registered hr => exact absurd (hid.symm.trans hr) (by simp)
  | assembled _ ha hes =>
      cases ha with
      | compare hnot =>
          rcases hnot with hnone | ⟨hleft, hright⟩
          · exact absurd (htest.symm.trans hnone) (by simp)
          · rw [hleft, hright] at hnull
            simp at hnull
      | rightNull hnegated hright =>
          obtain rfl := Option.some.inj (htest.symm.trans hnegated)
          rw [if_pos hright]
          exact .of_writes hop hes.of_one hwritten
      | leftNull hnegated _ hright =>
          obtain rfl := Option.some.inj (htest.symm.trans hnegated)
          rw [if_neg (Bool.eq_false_iff.1 hright)]
          exact .of_writes hop hes.of_one hwritten

/-- A field is not tested in place of null. -/
theorem not_readsAsTest_of_isReadNull (hleft : left.IsNullAt κ) (hright : right.IsReadNull κ) :
    ¬ ReadsAsTest sub κ op (.compare id op left right) right := by
  rintro ⟨t, u, ξ, ht, hu, htext⟩
  have htested := h.readsAsTest hid hop (.inr hright.1)
  rw [if_pos hright.1] at htested
  obtain ⟨t', u', ξ', ht', hu', htext'⟩ := htested
  obtain ⟨rfl, rfl⟩ := hu.unique hu'
  obtain ⟨rfl, -⟩ := ht'.unique hleft.writes
  obtain ⟨r, hr⟩ := Option.ne_none_iff_exists'.1 hright.2
  obtain ⟨rfl, -⟩ := ht.unique (.registered hr)
  have hfield : r.qualifier ++ "." ++ r.field = "NULL" :=
    (String.append_left_inj _).1 ((htext .generic 0).symm.trans (htext' .generic 0))
  -- there is a point in the one, and none in the other
  have hpoint : '.' ∈ "NULL".toList := by
    rw [← hfield]
    simp
  exact absurd hpoint (by decide)

theorem Writes.testsNull : TestsNull sub κ id op left right where
  of_right hright := by
    have htested := h.readsAsTest hid hop (.inr hright)
    rwa [if_pos hright] at htested
  of_left hleft := by
    refine ⟨fun htest hread => not_readsAsTest_of_isReadNull h hid hop hleft hread htest, fun hnot => ?_⟩
    have htested := h.readsAsTest hid hop (.inl hleft.1)
    by_cases hright : right.isNullLiteral = true
    · have hnull : right.IsNullAt κ := ⟨hright, not_not.1 fun hne => hnot ⟨hright, hne⟩⟩
      rw [if_pos hright] at htested
      obtain ⟨t, u, ν, ht, hu, htext⟩ := htested
      obtain ⟨rfl, rfl⟩ := ht.unique hleft.writes
      exact ⟨.null, u, ν, hnull.writes, hu, htext⟩
    · rwa [if_neg hright] at htested

end

/-! ## Whole compilations -/

/-- Every comparison by `=` or `!=` among the expressions of the visit tests null, from the moment on
at which those before it have been written.  One that is read from elsewhere is not written out. -/
def Visit.TestsNulls (v : Visit) : Prop :=
  ∀ es id op left right es' us κ, v.task = .exprs (es ++ .compare id op left right :: es') →
    WritesAll (compileWithin v.depth) es v.start us κ → κ.referenceOf id = none →
    op = .eq ∨ op = .ne → TestsNull (compileWithin v.depth) κ id op left right

theorem Visit.PassesThrough.testsNulls {v w : Visit} {ν : Moment} (h : v.PassesThrough w)
    (hends : v.Ends ν) : w.TestsNulls := by
  intro es id op left right es' us κ htask hes hid hop
  obtain ⟨ξ, hw, -, -⟩ := h.reaches.ends hends
  obtain ⟨depth, task, start⟩ := w
  obtain rfl : task = .exprs (es ++ .compare id op left right :: es') := htask
  obtain ⟨ts, hwrites⟩ := hw
  obtain ⟨u, -, ζ, hcompare, -⟩ := hwrites.split (compileWithin_evolves depth) hes
  exact hcompare.testsNull hid hop

/-- Null is never bound, and `=` and `!=` never compare with it.  If a query, the aggregate of one or a
statement that changes rows is compiled, no value that is bound is null, and none is a truth value
unless the dialect is the generic one; no comparison in the whole text, derived tables and subqueries
included, has null for an operand of `=` or `!=`; and every comparison that the compilation comes to,
at whatever depth, is written as a test if an operand is null.  It is the other operand that is tested,
except where null on the left meets a null that is read from elsewhere. -/
theorem compile_neverNull (d : Dialect) (scope : Scope) (session : Session) :
    (∀ (q : Query) (c : CompiledQuery), (compileQuery d scope q session).1 = .ok c →
      ∃ compiled last start, q.CompilesTo d scope session compiled last ∧
        c = ⟨compiled.select.render d 0, last.params⟩ ∧
        NeverNull d c.params compiled.select.comparisons ∧
        q.Starts d scope session start ∧ ∀ visit, start.PassesThrough visit → visit.TestsNulls) ∧
    (∀ (q : ScalarQuery) (c : CompiledQuery), (compileScalar d scope q session).1 = .ok c →
      ∃ s compiled last start, s.supply = session.supply ∧
        q.toQuery.CompilesTo d scope s compiled last ∧
        c = ⟨compiled.select.render d 0, last.params⟩ ∧
        NeverNull d c.params compiled.select.comparisons ∧
        q.toQuery.Starts d scope s start ∧ ∀ visit, start.PassesThrough visit → visit.TestsNulls) ∧
    (∀ (st : Statement) (c : CompiledQuery), (compileStatement d scope st session).1 = .ok c →
      ∃ change last s s' written, s.supply = session.supply ∧
        (st.compileIn scope).Takes ⟨.empty d, s⟩ change ⟨last, s'⟩ ∧
        c = ⟨change.render d, last.params⟩ ∧ NeverNull d c.params change.comparisons ∧
        st.Runs (compileWithin (st.nesting scope)) scope ⟨.empty d, s⟩ written ⟨last, s'⟩ ∧
        ∀ p ∈ written, ∀ visit,
          Visit.PassesThrough ⟨st.nesting scope, .exprs p.1, p.2⟩ visit → visit.TestsNulls) := by
  refine ⟨fun q c hc => ?_, fun q c hc => ?_, fun st c hc => ?_⟩
  · obtain ⟨compiled, last, hrun, rfl⟩ := compileQuery_iff_compilesTo.1 hc
    obtain ⟨start, ν, hstart, hends, -⟩ := hrun.exists_starts
    exact ⟨compiled, last, start, hrun, rfl, hrun.neverNull, hstart,
      fun visit hpass => hpass.testsNulls hends⟩
  · obtain ⟨s, hs, hc⟩ := compileScalar_eq_ok hc
    obtain ⟨compiled, last, hrun, rfl⟩ := compileQuery_iff_compilesTo.1 hc
    obtain ⟨start, ν, hstart, hends, -⟩ := hrun.exists_starts
    exact ⟨s, compiled, last, start, hs, hrun, rfl, hrun.neverNull, hstart,
      fun visit hpass => hpass.testsNulls hends⟩
  · obtain ⟨change, last, s, s', hchange, hs, rfl⟩ := compileStatement_eq_ok hc
    have htakes : (st.compileIn scope).Takes ⟨.empty d, s⟩ change ⟨last, s'⟩ := hchange
    obtain ⟨written, hruns⟩ := Statement.exists_runs htakes
    refine ⟨change, last, s, s', written, hs, htakes, rfl, Statement.neverNull htakes, hruns, ?_⟩
    intro p hp visit hpass
    obtain ⟨-, ts, ξ, hwrites, -⟩ := hruns.between (compileWithin_evolves _) p hp
    exact hpass.testsNulls ⟨ts, hwrites⟩

private def people : Table := ⟨"people", ["Name", "Member"]⟩

/-- Members without a name: null on either side, in both spellings, and a truth value. -/
private def namelessMembers : Query :=
  .filter (.table people)
    (.binary .and
      (.binary .and (.compare .eq (.named .row "Name") .null)
        (.compare .ne (.literal .null) (.named .row "Member")))
      (.compare .eq (.named .row "Member") (.literal (.bool true))))

private def namelessMembersText : String :=
  "SELECT\n    a0.Name AS Name,\n    a0.Member AS Member\nFROM\n    people a0\nWHERE\n" ++
    "    ((a0.Name IS NULL) AND (a0.Member IS NOT NULL)) AND (a0.Member = :p0)"

/-- Nobody has a name unless it is known whether they are a member. -/
private def clearNames : Statement :=
  .update ⟨people, [("Name", .computed .null)], [.compare .eq .null (.named .row "Member")]⟩

/-- One comparison and one value are left in the query, and none in the statement. -/
theorem compile_neverNull_namelessMembers :
    (∃ (c : CompiledQuery) (compiled : Compiled) (start : Visit),
      (compileQuery .sqlite [] namelessMembers {}).1 = .ok c ∧
      c.sql = namelessMembersText ∧ c.params = [(":p0", .int 1)] ∧
      NeverNull .sqlite c.params compiled.select.comparisons ∧
      namelessMembers.Starts .sqlite [] {} start ∧
      ∀ visit, start.PassesThrough visit → visit.TestsNulls) ∧
    ∃ (c : CompiledQuery) (change : Sql.Change),
      (compileStatement .sqlite [] clearNames {}).1 = .ok c ∧
      c.sql = "UPDATE people SET Name = NULL WHERE people.Member IS NULL" ∧ c.params = [] ∧
      NeverNull .sqlite c.params change.comparisons := by
  obtain ⟨hquery, -, hstatement⟩ := compile_neverNull .sqlite [] {}
  constructor
  · have hrun : (compileQuery .sqlite [] namelessMembers {}).1.toOption.map
        (fun c => (c.sql, c.params)) = some (namelessMembersText, [(":p0", .int 1)]) := by
      decide +kernel
    obtain ⟨c, hc, hshown⟩ := Option.map_eq_some_iff.1 hrun
    have hok := Except.eq_ok_of_toOption hc
    obtain ⟨compiled, last, start, -, -, hnever, hstart, htests⟩ := hquery _ c hok
    exact ⟨c, compiled, start, hok, congrArg Prod.fst hshown, congrArg Prod.snd hshown, hnever, hstart,
      htests⟩
  · have hrun : (compileStatement .sqlite [] clearNames {}).1.toOption.map
        (fun c => (c.sql, c.params)) =
          some ("UPDATE people SET Name = NULL WHERE people.Member IS NULL", []) := by
      decide +kernel
    obtain ⟨c, hc, hshown⟩ := Option.map_eq_some_iff.1 hrun
    have hok := Except.eq_ok_of_toOption hc
    obtain ⟨change, last, s, s', written, -, -, -, hnever, -⟩ := hstatement _ c hok
    exact ⟨c, change, hok, congrArg Prod.fst hshown, congrArg Prod.snd hshown, hnever⟩

/-- Null is compared with a column that was made of null. -/
private def nullColumn : Query :=
  .filter (.derived (.select (.table ⟨"t", ["A"]⟩) [.exprs [.null]] none))
    (.compare .eq .null (.field .row 0))

/-- Where the column is read as a field. -/
private def nullColumnRead : Moment := ⟨(Context.empty .generic).register 1 ⟨"a1", "Proj0"⟩, {}⟩

/-- Null on the left is tested in place of the field on the right, in the text of a query too. -/
theorem compile_neverNull_nullColumn_ne :
    Expr.IsNullAt (.null 2) nullColumnRead ∧
      Writes (compileWithin 0) (.null 1) nullColumnRead (.reference "a1" "Proj0") nullColumnRead ∧
      ¬ ReadsAsTest (compileWithin 0) nullColumnRead .eq (.compare 3 .eq (.null 2) (.null 1))
        (.null 1) ∧
      (compileQuery .generic [] nullColumn {}).1.toOption.map (·.sql) =
        some ("SELECT\n    a1.Proj0 AS Proj0\nFROM (\n    SELECT\n        NULL AS Proj0\n" ++
          "    FROM\n        t a0\n) a1\nWHERE\n    NULL IS NULL") := by
  have hleft : Expr.IsNullAt (.null 2) nullColumnRead := ⟨rfl, rfl⟩
  have hright : Expr.IsReadNull (.null 1) nullColumnRead := ⟨rfl, Option.some_ne_none _⟩
  have hwritten : Writes (compileWithin 0) (.compare 3 .eq (.null 2) (.null 1)) nullColumnRead
      (.nullTest false .null) nullColumnRead :=
    .assembled rfl (.rightNull rfl rfl) (.one hleft.writes)
  refine ⟨hleft, .registered (r := ⟨"a1", "Proj0"⟩) rfl, ?_, by decide +kernel⟩
  exact not_readsAsTest_of_isReadNull hwritten rfl (.inl rfl) hleft hright

end QueryCompiler
