import QueryCompiler.Proofs.Fusion.NormalForm

/-! # `QueryCompiler.Proofs.Layout.Spine` — the clauses of a query from the outside in

The spine of a query lists the query and what stands below each of its clauses, down to the table,
through queries that are kept apart as sources of their own.  Subqueries of expressions are not part
of it.

A condition on groups is *stray* if it does not stand on a grouping that can take it.  Passes neither
make a condition stray nor take in one that is: the only one that a pass takes away stands on an open
grouping, and no pass opens a grouping.  So a query has a stray condition exactly if its normal form
has one, and there the stray conditions are all that are left.
-/

namespace QueryCompiler.Query

/-- The query and what stands below each of its clauses, outermost first. -/
def spine : Query → List Query
  | .table t => [.table t]
  | .derived inner => .derived inner :: inner.spine
  | .select source stages aliases => .select source stages aliases :: source.spine
  | .filter source predicate => .filter source predicate :: source.spine
  | .orderBy source keys => .orderBy source keys :: source.spine
  | .groupBy source keys condition => .groupBy source keys condition :: source.spine
  | .having source predicate => .having source predicate :: source.spine
  | .join source joins => .join source joins :: source.spine

/-- The query is a condition on groups over something else than a grouping without a condition. -/
def isStray : Query → Bool
  | .having source _ => source.head ≠ .openGrouping
  | _ => false

theorem isStray_having {source : Query} (h : source.head ≠ .openGrouping) (p : ExprTerm) :
    (having source p).isStray = true :=
  decide_eq_true h

/-! ## Passes -/

/-- A pass neither makes conditions on groups stray nor takes stray ones in. -/
theorem any_isStray_fuseOnce (q : Query) :
    q.fuseOnce.1.spine.any isStray = q.spine.any isStray := by
  fun_induction fuseOnce q with
  | case10 source p hopen source' changed hpass ih =>
      obtain ⟨hsource, hsource'⟩ := head_ne_of_pass hopen hpass
      simp only [spine, List.any_cons, isStray_having hsource, isStray_having hsource',
        Bool.true_or]
  | case1 | case3 | case5 | case7 | case9 | case12 => simp [spine, isStray, head]
  | case2 _ _ _ hpass ih | case4 _ _ _ _ _ hpass ih | case6 _ _ _ _ _ hpass ih
  | case8 _ _ _ _ _ _ hpass ih | case11 _ _ _ _ _ hpass ih | case13 _ _ _ _ _ hpass ih =>
      rw [hpass] at ih
      simpa [spine, isStray] using ih

theorem any_isStray_normalize (q : Query) :
    q.normalize.spine.any isStray = q.spine.any isStray := by
  have hrooted : ∀ q : Query, q.rooted.spine.any isStray = q.spine.any isStray := by
    intro q
    cases q <;> simp [rooted, passThrough, spine, isStray]
  rw [normalize, hrooted]
  induction q using passes_induction with
  | done q hq => rw [fused_of_unchanged hq]
  | pass q hq ih => rw [fused_of_changed hq, ih, any_isStray_fuseOnce]

end QueryCompiler.Query
