import QueryCompiler.Query.Normalize

/-! # `QueryCompiler.Proofs.Fusion.Passes` — what repeated passes come to

A pass that changes something takes exactly one clause away, and one that changes nothing gives
back its query.  So the passes over a query, which are bounded by its depth, always end with one
that changes nothing, and the fused query obeys

    fused q   =   fused (the query after one pass)      if the pass changes something
    fused q   =   q                                     otherwise

Nothing else about the bound is used further on.
-/

namespace QueryCompiler.Query

theorem fuseOnce_unchanged (q : Query) (h : q.fuseOnce.2 = false) : q.fuseOnce.1 = q := by
  fun_induction fuseOnce q <;> simp_all

theorem depth_fuseOnce (q : Query) (h : q.fuseOnce.2 = true) :
    q.fuseOnce.1.depth + 1 = q.depth := by
  fun_induction fuseOnce q <;> simp_all [depth]

theorem depth_pos (q : Query) : 0 < q.depth := by
  cases q <;> simp [depth]

/-- The query that at most so many passes come to. -/
def fusedWithin (n : Nat) (q : Query) : Query :=
  ((passesWithin n q).getLast?.map (·.result)).getD q

theorem fusedWithin_succ (n : Nat) (q : Query) :
    fusedWithin (n + 1) q = if q.fuseOnce.2 then fusedWithin n q.fuseOnce.1 else q.fuseOnce.1 := by
  unfold fusedWithin
  rw [passesWithin]
  cases hc : q.fuseOnce.2 with
  | false => simp [hc]
  | true =>
      simp only [hc, if_true, List.getLast?_cons]
      cases (passesWithin n q.fuseOnce.1).getLast? with
      | none => rfl
      | some pass => rfl

theorem fused_of_changed {q : Query} (h : q.fuseOnce.2 = true) : q.fused = q.fuseOnce.1.fused := by
  have hd := depth_fuseOnce q h
  show fusedWithin q.depth q = fusedWithin q.fuseOnce.1.depth q.fuseOnce.1
  rw [← hd, fusedWithin_succ, if_pos h]

theorem fused_of_unchanged {q : Query} (h : q.fuseOnce.2 = false) : q.fused = q := by
  obtain ⟨m, hm⟩ : ∃ m, q.depth = m + 1 := ⟨q.depth - 1, by have := depth_pos q; omega⟩
  show fusedWithin q.depth q = q
  rw [hm, fusedWithin_succ, h]
  exact fuseOnce_unchanged q h

/-- To prove something of every query along its passes: prove it of the queries that a pass leaves
alone, and carry it back over a pass that changes something. -/
theorem passes_induction {P : Query → Prop}
    (done : ∀ q : Query, q.fuseOnce.2 = false → P q)
    (pass : ∀ q : Query, q.fuseOnce.2 = true → P q.fuseOnce.1 → P q) (q : Query) : P q := by
  induction hn : q.depth using Nat.strongRecOn generalizing q with
  | ind n ih =>
      cases hc : q.fuseOnce.2 with
      | false => exact done q hc
      | true =>
          have hd := depth_fuseOnce q hc
          exact pass q hc (ih q.fuseOnce.1.depth (by omega) q.fuseOnce.1 rfl)

end QueryCompiler.Query
