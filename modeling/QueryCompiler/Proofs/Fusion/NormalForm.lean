import QueryCompiler.Proofs.Fusion.Equations
import QueryCompiler.Proofs.Likeness.Identities
import QueryCompiler.Proofs.LiteralIndependence

/-! # `QueryCompiler.Proofs.Fusion.NormalForm` — passes end, and end in a normal form

The passes over a query are a loop that nothing bounds: one more pass as long as the last one changed
something.  It ends since such a pass takes exactly one clause away, and it ends where no clause
stands on one that it fuses with, below tables kept apart as well.  Put under a projection, such a
query is still of this kind, so that bringing it into normal form again finds nothing to do, and a
compilation may start from the normal form just as well.

`Normal` is said of the clauses and knows nothing of passes; that a pass finds nothing in a query
exactly if it is normal is `normal_iff`.
-/

namespace QueryCompiler.Query

/-- Nowhere in the query does a clause stand on one that it fuses with. -/
def Normal : Query → Prop
  | .table _ => True
  | .derived inner => inner.Normal
  | .select source _ _ => source.head ≠ .select ∧ source.Normal
  | .filter source _ => source.head ≠ .filter ∧ source.Normal
  | .orderBy source _ => source.head ≠ .orderBy ∧ source.Normal
  | .groupBy source _ _ => source.Normal
  | .having source _ => source.head ≠ .openGrouping ∧ source.Normal
  | .join source _ => source.head ≠ .join ∧ source.Normal

/-- A clause that fuses with those of head `h` is left alone by a pass if no such clause is below it
and the pass leaves alone what is. -/
theorem unchanged_under {q clause : Query} {h : Head}
    (hfuse : q.head = h → clause.fuseOnce.2 = true)
    (hstay : q.head ≠ h → clause.fuseOnce.2 = q.fuseOnce.2) :
    q.head ≠ h ∧ q.fuseOnce.2 = false ↔ clause.fuseOnce.2 = false := by
  by_cases hq : q.head = h
  · rw [hfuse hq]
    exact iff_of_false (fun hn => hn.1 hq) Bool.noConfusion
  · rw [hstay hq]
    exact and_iff_right hq

theorem normal_iff : ∀ q : Query, q.Normal ↔ q.fuseOnce.2 = false
  | .table _ => iff_of_true trivial rfl
  | .derived inner => normal_iff inner
  | .groupBy source _ _ => normal_iff source
  | .select source stages aliases => by
      refine (and_congr_right' (normal_iff source)).trans (unchanged_under (fun h => ?_) fun h => ?_)
      · obtain ⟨source, _, _, rfl⟩ := eq_select_of_head h
        rfl
      · rw [fuseOnce_select h]
  | .filter source p => by
      refine (and_congr_right' (normal_iff source)).trans (unchanged_under (fun h => ?_) fun h => ?_)
      · obtain ⟨source, _, rfl⟩ := eq_filter_of_head h
        rfl
      · rw [fuseOnce_filter h]
  | .orderBy source keys => by
      refine (and_congr_right' (normal_iff source)).trans (unchanged_under (fun h => ?_) fun h => ?_)
      · obtain ⟨source, _, rfl⟩ := eq_orderBy_of_head h
        rfl
      · rw [fuseOnce_orderBy h]
  | .having source p => by
      refine (and_congr_right' (normal_iff source)).trans (unchanged_under (fun h => ?_) fun h => ?_)
      · obtain ⟨source, _, rfl⟩ := eq_groupBy_of_head h
        rfl
      · rw [fuseOnce_having h]
  | .join source joins => by
      refine (and_congr_right' (normal_iff source)).trans (unchanged_under (fun h => ?_) fun h => ?_)
      · obtain ⟨source, _, rfl⟩ := eq_join_of_head h
        rfl
      · rw [fuseOnce_join h]

instance : DecidablePred Normal := fun q => decidable_of_iff _ (normal_iff q).symm

/-! ## The loop -/

/-- Pass after pass, up to the first that changes nothing, with what each comes to. -/
inductive Loop : Query → List Pass → Query → Prop
  | stop {q result : Query} : q.fuseOnce = (result, false) → Loop q [⟨result, false⟩] result
  | again {q next result : Query} {passes : List Pass} : q.fuseOnce = (next, true) →
      Loop next passes result → Loop q (⟨next, true⟩ :: passes) result

theorem fuseOnce_of_unchanged {q : Query} (h : q.fuseOnce.2 = false) : q.fuseOnce = (q, false) :=
  Prod.ext (fuseOnce_unchanged q h) h

theorem depth_of_fuseOnce {q next : Query} (h : q.fuseOnce = (next, true)) :
    next.depth + 1 = q.depth := by
  have hd := depth_fuseOnce q (congrArg Prod.snd h)
  rwa [h] at hd

theorem passes_of_changed {q next : Query} (h : q.fuseOnce = (next, true)) :
    q.passes = ⟨next, true⟩ :: next.passes := by
  rw [passes, ← depth_of_fuseOnce h, passesWithin, h]
  rfl

theorem passes_of_unchanged {q : Query} (h : q.fuseOnce.2 = false) : q.passes = [⟨q, false⟩] := by
  obtain ⟨n, hn⟩ : ∃ n, q.depth = n + 1 := ⟨q.depth - 1, by have := depth_pos q; omega⟩
  rw [passes, hn, passesWithin, fuseOnce_of_unchanged h]
  rfl

theorem loop_passes (q : Query) : Loop q q.passes q.fused := by
  induction q using passes_induction with
  | done q hq =>
      rw [passes_of_unchanged hq, fused_of_unchanged hq]
      exact .stop (fuseOnce_of_unchanged hq)
  | pass q hq ih =>
      have hpass : q.fuseOnce = (q.fuseOnce.1, true) := Prod.ext rfl hq
      rw [passes_of_changed hpass, fused_of_changed hq]
      exact .again hpass ih

/-- What a loop comes to is normal, and each of its passes but the last took one clause away. -/
theorem Loop.normal_and_length {q result : Query} {passes : List Pass}
    (h : Loop q passes result) :
    result.Normal ∧ passes.length + result.depth = q.depth + 1 := by
  induction h with
  | @stop q result hq =>
      have hsame : q.fuseOnce = (q, false) := fuseOnce_of_unchanged (by rw [hq])
      obtain rfl : result = q := congrArg Prod.fst (hq.symm.trans hsame)
      exact ⟨(normal_iff result).2 (by rw [hq]), Nat.add_comm _ _⟩
  | @again q next result passes hq _ ih =>
      have hd := depth_of_fuseOnce hq
      refine ⟨ih.1, ?_⟩
      rw [List.length_cons]
      omega

/-! ## Under a projection -/

theorem head_rooted (q : Query) : q.rooted.head = .select := by
  cases q <;> rfl

theorem rooted_of_select {q : Query} (h : q.head = .select) : q.rooted = q := by
  obtain ⟨source, stages, aliases, rfl⟩ := eq_select_of_head h
  rfl

theorem Normal.rooted {q : Query} (h : q.Normal) : q.rooted.Normal := by
  by_cases hq : q.head = .select
  · rwa [rooted_of_select hq]
  · have hr : q.rooted = q.passThrough := by
      cases q with
      | select => exact absurd rfl hq
      | _ => rfl
    rw [hr]
    exact ⟨hq, h⟩

theorem normalize_of_normal {q : Query} (hhead : q.head = .select) (h : q.Normal) :
    q.normalize = q := by
  rw [normalize, fused_of_unchanged ((normal_iff q).1 h), rooted_of_select hhead]

theorem normalize_normalize (q : Query) : q.normalize.normalize = q.normalize :=
  normalize_of_normal (head_rooted q.fused) (loop_passes q).normal_and_length.1.rooted

/-! ## Compiling the normal form -/

/-- Only what is reported of the passes depends on which of two queries with one normal form is
compiled. -/
theorem compileQuery_congr {q q' : Query} (h : q.normalize = q'.normalize) (d : Dialect)
    (scope : Scope) (session : Session) :
    (compileQuery d scope q session).1 = (compileQuery d scope q' session).1 := by
  have hs : scope.Alike (.sharing Eq fun hv => congrArg _ hv) scope :=
    Entry.AlikeAll.refl (fun _ => rfl) scope fun _ _ => rfl
  have hn : q.normalize.Alike Eq q'.normalize := h ▸ Query.Alike.refl (fun _ => rfl) q.normalize
  have hresult : ResultAlike _ _ (compileQuery d scope q session).1
      (compileQuery d scope q' session).1 :=
    (Query.compileText_inStep hs hn).start (.refl_sharing _)
  generalize (compileQuery d scope q session).1 = r at hresult ⊢
  generalize (compileQuery d scope q' session).1 = r' at hresult ⊢
  cases hresult with
  | ok hc => rw [hc.eq fun hv => hv]
  | error he => rw [he.eq_of_sharing]

/-- Bringing a query into normal form ends, in a normal form.  A pass takes exactly one clause away
or gives its query back; so the loop of passes makes one pass for each clause that it takes away, and
one more.  What it comes to, under a projection, is normal at every depth, is its own normal form, and
compiles as the query does, in every dialect. -/
theorem normalize_normalForm (q : Query) :
    ((q.fuseOnce.2 = true ∧ q.fuseOnce.1.depth + 1 = q.depth) ∨ q.fuseOnce = (q, false)) ∧
    Loop q q.passes q.fused ∧ q.passes.length + q.fused.depth = q.depth + 1 ∧
    q.normalize = q.fused.rooted ∧ q.normalize.head = .select ∧ q.normalize.Normal ∧
    q.normalize.normalize = q.normalize ∧
    ∀ (d : Dialect) (scope : Scope) (session : Session),
      (compileQuery d scope q.normalize session).1 = (compileQuery d scope q session).1 := by
  have hloop : Loop q q.passes q.fused := loop_passes q
  obtain ⟨hnormal, hlength⟩ := hloop.normal_and_length
  refine ⟨?_, hloop, hlength, rfl, head_rooted q.fused, hnormal.rooted, normalize_normalize q,
    compileQuery_congr (normalize_normalize q)⟩
  cases hc : q.fuseOnce.2 with
  | true => exact .inl ⟨rfl, depth_fuseOnce q hc⟩
  | false => exact .inr (fuseOnce_of_unchanged hc)

end QueryCompiler.Query
