import QueryCompiler.Proofs.Fusion.Passes

/-! # `QueryCompiler.Proofs.Fusion.Equations` — the fused query, clause by clause

Passes start over at the outermost clause each time, but what they come to can be computed from the
outside in, one clause at a time.  A clause that fuses with the one below it is fused first; any
other clause stays where it is, over the fused rest:

    fused (filter p₂ (filter p₁ q))   =   fused (filter (p₁ and p₂) q)
    fused (filter p q)                =   filter p (fused q)          unless q starts with a filter

and so for the other kinds.  That nothing new can be fused at a clause once the passes are below it
is seen from the heads of queries: a pass keeps the head, except that a condition on groups becomes
the grouping it has met.
-/

namespace QueryCompiler.Query

/-- What the outermost clause of a query is; groupings with and without a condition differ. -/
inductive Head where
  | table
  | derived
  | select
  | filter
  | orderBy
  | openGrouping
  | closedGrouping
  | having
  | join
deriving DecidableEq, Repr

/-- The outermost clause of a query. -/
def head : Query → Head
  | .table _ => .table
  | .derived _ => .derived
  | .select .. => .select
  | .filter .. => .filter
  | .orderBy .. => .orderBy
  | .groupBy _ _ none => .openGrouping
  | .groupBy _ _ (some _) => .closedGrouping
  | .having .. => .having
  | .join .. => .join

section Inversion

variable {q : Query}

theorem eq_filter_of_head (h : q.head = .filter) : ∃ source p, q = .filter source p := by
  cases q with
  | filter source p => exact ⟨source, p, rfl⟩
  | groupBy _ _ condition => cases condition <;> cases h
  | _ => cases h

theorem eq_orderBy_of_head (h : q.head = .orderBy) : ∃ source keys, q = .orderBy source keys := by
  cases q with
  | orderBy source keys => exact ⟨source, keys, rfl⟩
  | groupBy _ _ condition => cases condition <;> cases h
  | _ => cases h

theorem eq_select_of_head (h : q.head = .select) :
    ∃ source stages aliases, q = .select source stages aliases := by
  cases q with
  | select source stages aliases => exact ⟨source, stages, aliases, rfl⟩
  | groupBy _ _ condition => cases condition <;> cases h
  | _ => cases h

theorem eq_join_of_head (h : q.head = .join) : ∃ source joins, q = .join source joins := by
  cases q with
  | join source joins => exact ⟨source, joins, rfl⟩
  | groupBy _ _ condition => cases condition <;> cases h
  | _ => cases h

theorem eq_groupBy_of_head (h : q.head = .openGrouping) :
    ∃ source keys, q = .groupBy source keys none := by
  cases q with
  | groupBy source keys condition =>
      cases condition with
      | none => exact ⟨source, keys, rfl⟩
      | some => cases h
  | _ => cases h

end Inversion

/-- A pass keeps the head of a query, or closes a grouping that stood under the head. -/
theorem head_fuseOnce (q : Query) :
    q.fuseOnce.1.head = q.head ∨ q.head = .having ∧ q.fuseOnce.1.head = .closedGrouping := by
  fun_cases fuseOnce q
  case case9 => exact .inr ⟨rfl, rfl⟩
  case case11 condition _ _ _ => cases condition <;> exact .inl rfl
  all_goals exact .inl rfl

/-- A head that no pass makes up stays away. -/
theorem head_fuseOnce_ne {q : Query} {h : Head} (hq : q.head ≠ h) (hh : h ≠ .closedGrouping) :
    q.fuseOnce.1.head ≠ h := by
  rcases head_fuseOnce q with he | ⟨-, he⟩
  · rwa [he]
  · rw [he]
    exact hh.symm

/-- A condition on groups that a pass does not take in stays over something else than a grouping
without a condition. -/
theorem head_ne_of_pass {source source' : Query} {changed : Bool}
    (hopen : ∀ inner keys, source = .groupBy inner keys none → False)
    (hpass : source.fuseOnce = (source', changed)) :
    source.head ≠ .openGrouping ∧ source'.head ≠ .openGrouping := by
  have hsource : source.head ≠ .openGrouping := by
    intro hhead
    obtain ⟨inner, keys, rfl⟩ := eq_groupBy_of_head hhead
    exact hopen inner keys rfl
  have hsource' := head_fuseOnce_ne hsource (by decide)
  rw [hpass] at hsource'
  exact ⟨hsource, hsource'⟩

/-- If passes over a clause are passes over what is below it, so are all of them together. -/
theorem fused_under (clause : Query → Query) (ok : Query → Prop)
    (hclause : ∀ q, ok q → (clause q).fuseOnce = (clause q.fuseOnce.1, q.fuseOnce.2))
    (hok : ∀ q, ok q → ok q.fuseOnce.1) (q : Query) (h : ok q) :
    (clause q).fused = clause q.fused := by
  induction q using passes_induction with
  | done q hq =>
      have hc : (clause q).fuseOnce.2 = false := by rw [hclause q h, hq]
      rw [fused_of_unchanged hc, fused_of_unchanged hq]
  | pass q hq ih =>
      have hc : (clause q).fuseOnce.2 = true := by rw [hclause q h, hq]
      rw [fused_of_changed hc, fused_of_changed hq, hclause q h]
      exact ih (hok q h)

variable {q : Query}

/-! ## Passes over a clause that stays -/

theorem fuseOnce_filter (h : q.head ≠ .filter) (p : ExprTerm) :
    (filter q p).fuseOnce = (.filter q.fuseOnce.1 p, q.fuseOnce.2) := by
  cases q with
  | filter => exact absurd rfl h
  | _ => rfl

theorem fuseOnce_orderBy (h : q.head ≠ .orderBy) (keys : List SortTerm) :
    (orderBy q keys).fuseOnce = (.orderBy q.fuseOnce.1 keys, q.fuseOnce.2) := by
  cases q with
  | orderBy => exact absurd rfl h
  | _ => rfl

theorem fuseOnce_select (h : q.head ≠ .select) (stages : List RowTerm)
    (aliases : Option (List String)) :
    (select q stages aliases).fuseOnce = (.select q.fuseOnce.1 stages aliases, q.fuseOnce.2) := by
  cases q with
  | select => exact absurd rfl h
  | _ => rfl

theorem fuseOnce_join (h : q.head ≠ .join) (joins : List JoinTerm) :
    (join q joins).fuseOnce = (.join q.fuseOnce.1 joins, q.fuseOnce.2) := by
  cases q with
  | join => exact absurd rfl h
  | _ => rfl

theorem fuseOnce_having (h : q.head ≠ .openGrouping) (p : ExprTerm) :
    (having q p).fuseOnce = (.having q.fuseOnce.1 p, q.fuseOnce.2) := by
  cases q with
  | groupBy source keys condition =>
      cases condition with
      | none => exact absurd rfl h
      | some => rfl
  | _ => rfl

/-! ## Clauses that stay -/

theorem fused_table (t : Table) : (table t).fused = .table t := fused_of_unchanged rfl

theorem fused_derived (q : Query) : (derived q).fused = .derived q.fused :=
  fused_under .derived (fun _ => True) (fun _ _ => rfl) (fun _ h => h) q trivial

theorem fused_groupBy (q : Query) (keys : List ExprTerm) (condition : Option ExprTerm) :
    (groupBy q keys condition).fused = .groupBy q.fused keys condition :=
  fused_under (.groupBy · keys condition) (fun _ => True) (fun _ _ => rfl) (fun _ h => h) q trivial

theorem fused_filter (h : q.head ≠ .filter) (p : ExprTerm) :
    (filter q p).fused = .filter q.fused p :=
  fused_under (.filter · p) (·.head ≠ .filter) (fun _ hq => fuseOnce_filter hq p)
    (fun _ hq => head_fuseOnce_ne hq (by decide)) q h

theorem fused_orderBy (h : q.head ≠ .orderBy) (keys : List SortTerm) :
    (orderBy q keys).fused = .orderBy q.fused keys :=
  fused_under (.orderBy · keys) (·.head ≠ .orderBy) (fun _ hq => fuseOnce_orderBy hq keys)
    (fun _ hq => head_fuseOnce_ne hq (by decide)) q h

theorem fused_select (h : q.head ≠ .select) (stages : List RowTerm)
    (aliases : Option (List String)) :
    (select q stages aliases).fused = .select q.fused stages aliases :=
  fused_under (.select · stages aliases) (·.head ≠ .select)
    (fun _ hq => fuseOnce_select hq stages aliases)
    (fun _ hq => head_fuseOnce_ne hq (by decide)) q h

theorem fused_join (h : q.head ≠ .join) (joins : List JoinTerm) :
    (join q joins).fused = .join q.fused joins :=
  fused_under (.join · joins) (·.head ≠ .join) (fun _ hq => fuseOnce_join hq joins)
    (fun _ hq => head_fuseOnce_ne hq (by decide)) q h

theorem fused_having (h : q.head ≠ .openGrouping) (p : ExprTerm) :
    (having q p).fused = .having q.fused p :=
  fused_under (.having · p) (·.head ≠ .openGrouping) (fun _ hq => fuseOnce_having hq p)
    (fun _ hq => head_fuseOnce_ne hq (by decide)) q h

/-! ## Clauses that fuse -/

theorem fused_filter_filter (q : Query) (first second : ExprTerm) :
    (filter (filter q first) second).fused = (filter q (.binary .and first second)).fused :=
  fused_of_changed rfl

theorem fused_orderBy_orderBy (q : Query) (first second : List SortTerm) :
    (orderBy (orderBy q first) second).fused = (orderBy q (first ++ second)).fused :=
  fused_of_changed rfl

theorem fused_select_select (q : Query) (first second : List RowTerm)
    (inner outer : Option (List String)) :
    (select (select q first inner) second outer).fused =
      (select q (first ++ second) outer).fused :=
  fused_of_changed rfl

theorem fused_join_join (q : Query) (first second : List JoinTerm) :
    (join (join q first) second).fused = (join q (first ++ second)).fused :=
  fused_of_changed rfl

theorem fused_having_groupBy (q : Query) (keys : List ExprTerm) (p : ExprTerm) :
    (having (groupBy q keys none) p).fused = .groupBy q.fused keys (some p) := by
  rw [fused_of_changed rfl]
  exact fused_groupBy q keys (some p)

end QueryCompiler.Query
