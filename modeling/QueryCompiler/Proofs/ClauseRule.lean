import QueryCompiler.Proofs.Fusion.Passes
import QueryCompiler.Query.Block

/-! # `QueryCompiler.Proofs.ClauseRule` — what the clauses of a query may be

A rule says of each kind of clause what it may be.  A query that obeys a rule still does when its
clauses have been fused, provided that the rule does not tell two conditions from their conjunction,
nor a grouping and a condition on its groups from the two in one.  The blocks that such a query is
laid out to hold nothing but its clauses, and obey the rule in turn.
-/

namespace QueryCompiler

/-- What each kind of clause may be. -/
structure ClauseRule where
  table : Table → Prop
  stage : RowTerm → Prop
  aliases : List String → Prop
  filter : ExprTerm → Prop
  sortKey : SortTerm → Prop
  grouping : List ExprTerm → Option ExprTerm → Prop
  having : ExprTerm → Prop
  join : JoinTerm → Prop
  filter_and : ∀ {p q}, filter p → filter q → filter (.binary .and p q)
  grouping_having : ∀ {keys p}, grouping keys none → having p → grouping keys (some p)

/-- Every clause of the query is as the rule says. -/
inductive Query.Obeys (R : ClauseRule) : Query → Prop
  | table {t} : R.table t → Query.Obeys R (.table t)
  | derived {inner} : Query.Obeys R inner → Query.Obeys R (.derived inner)
  | select {source stages aliases} : Query.Obeys R source → (∀ stage ∈ stages, R.stage stage) →
      (∀ names ∈ aliases, R.aliases names) → Query.Obeys R (.select source stages aliases)
  | filter {source predicate} : Query.Obeys R source → R.filter predicate →
      Query.Obeys R (.filter source predicate)
  | orderBy {source keys} : Query.Obeys R source → (∀ key ∈ keys, R.sortKey key) →
      Query.Obeys R (.orderBy source keys)
  | groupBy {source keys condition} : Query.Obeys R source → R.grouping keys condition →
      Query.Obeys R (.groupBy source keys condition)
  | having {source predicate} : Query.Obeys R source → R.having predicate →
      Query.Obeys R (.having source predicate)
  | join {source joins} : Query.Obeys R source → (∀ join ∈ joins, R.join join) →
      Query.Obeys R (.join source joins)

structure Clauses.Obeys (R : ClauseRule) (clauses : Clauses) : Prop where
  joins : ∀ joins ∈ clauses.joins, ∀ join ∈ joins, R.join join
  filter : ∀ predicate ∈ clauses.filter, R.filter predicate
  grouping : ∀ grouping ∈ clauses.grouping, R.grouping grouping.keys grouping.having
  order : ∀ keys ∈ clauses.order, ∀ key ∈ keys, R.sortKey key

mutual

/-- The clauses of a block, and of those it reads from, are as the rule says. -/
inductive Block.Obeys (R : ClauseRule) : Block → Prop
  | mk {body clauses base stages aliases} : Clauses.Obeys R clauses → Base.Obeys R base →
      (∀ stage ∈ stages, R.stage stage) → (∀ names ∈ aliases, R.aliases names) →
      Block.Obeys R (.mk body clauses base stages aliases)

/-- What a block reads from is as the rule says; a stray condition on groups cannot be read. -/
inductive Base.Obeys (R : ClauseRule) : Base → Prop
  | table {t} : R.table t → Base.Obeys R (.table t)
  | derived {block} : Block.Obeys R block → Base.Obeys R (.derived block)
  | strayHaving {query} : Base.Obeys R (.strayHaving query)

end

variable {R : ClauseRule}

namespace Query.Obeys

/-! ## Fusing -/

theorem fuseOnce : ∀ {q : Query}, q.Obeys R → q.fuseOnce.1.Obeys R
  | _, .table h => .table h
  | _, .derived h => .derived h.fuseOnce
  | _, .filter h h₂ => by
      have ih := h.fuseOnce
      cases h with
      | filter h h₁ => exact .filter h (R.filter_and h₁ h₂)
      | _ => exact .filter ih h₂
  | _, .orderBy h h₂ => by
      have ih := h.fuseOnce
      cases h with
      | orderBy h h₁ => exact .orderBy h (List.forall_mem_append.2 ⟨h₁, h₂⟩)
      | _ => exact .orderBy ih h₂
  | _, .select h h₂ ha => by
      have ih := h.fuseOnce
      cases h with
      | select h h₁ _ => exact .select h (List.forall_mem_append.2 ⟨h₁, h₂⟩) ha
      | _ => exact .select ih h₂ ha
  | _, .having h h₂ => by
      have ih := h.fuseOnce
      cases h with
      | @groupBy _ _ condition h h₁ =>
          cases condition with
          | none => exact .groupBy h (R.grouping_having h₁ h₂)
          | some _ => exact .having ih h₂
      | _ => exact .having ih h₂
  | _, .groupBy h h₁ => .groupBy h.fuseOnce h₁
  | _, .join h h₂ => by
      have ih := h.fuseOnce
      cases h with
      | join h h₁ => exact .join h (List.forall_mem_append.2 ⟨h₁, h₂⟩)
      | _ => exact .join ih h₂

theorem fused {q : Query} : q.Obeys R → q.fused.Obeys R := by
  induction q using Query.passes_induction with
  | done q hq =>
      intro h
      rw [Query.fused_of_unchanged hq]
      exact h
  | pass q hq ih =>
      intro h
      rw [Query.fused_of_changed hq]
      exact ih h.fuseOnce

theorem rooted {q : Query} (h : q.Obeys R) : q.rooted.Obeys R := by
  have hp : q.passThrough.Obeys R := .select h (by simp) (by simp)
  cases h with
  | select h₁ h₂ h₃ => exact .select h₁ h₂ h₃
  | _ => exact hp

theorem normalize {q : Query} (h : q.Obeys R) : q.normalize.Obeys R := h.fused.rooted

end Query.Obeys

/-! ## Blocks -/

theorem Clauses.Obeys.empty : Clauses.Obeys R {} := ⟨by simp, by simp, by simp, by simp⟩

namespace Query

def LaidOutObeys (R : ClauseRule) (content : Clauses × Base) : Prop :=
  content.1.Obeys R ∧ content.2.Obeys R

theorem LaidOutObeys.statement {content : Clauses × Base} (h : LaidOutObeys R content) (q : Query)
    {stages : List RowTerm} (hs : ∀ stage ∈ stages, R.stage stage)
    {aliases : Option (List String)} (ha : ∀ names ∈ aliases, R.aliases names) :
    LaidOutObeys R ({}, .derived (.mk q content.1 content.2 stages aliases)) :=
  ⟨.empty, .derived (.mk h.1 h.2 hs ha)⟩

theorem LaidOutObeys.passThrough {content : Clauses × Base} (h : LaidOutObeys R content)
    (q : Query) : LaidOutObeys R ({}, .derived (.mk q content.1 content.2 [] none)) :=
  h.statement q (by simp) (by simp)

theorem LaidOutObeys.fit {content : Clauses × Base} (h : LaidOutObeys R content) (q : Query)
    (here there : Place) : LaidOutObeys R (fit here there q content) := by
  unfold Query.fit
  split
  · exact h
  · exact h.passThrough q

theorem Obeys.layout : ∀ {q : Query} (here : Place), q.Obeys R → LaidOutObeys R (q.layout here)
  | _, _, .table h => ⟨.empty, .table h⟩
  | _, _, @Obeys.derived _ inner h => by
      have ih := (h.layout .order).passThrough inner
      cases h with
      | select h hs ha => exact (h.layout .order).statement _ hs ha
      | _ => exact ih
  | _, _, .select h hs ha => (h.layout .order).statement _ hs ha
  | _, here, .orderBy h hk => by
      obtain ⟨hc, hb⟩ := h.layout .grouping
      refine LaidOutObeys.fit ?_ _ here .order
      exact ⟨⟨hc.joins, hc.filter, hc.grouping, by simpa using hk⟩, hb⟩
  | _, here, .groupBy h hg => by
      obtain ⟨hc, hb⟩ := h.layout .filter
      refine LaidOutObeys.fit ?_ _ here .grouping
      exact ⟨⟨hc.joins, hc.filter, by simpa using hg, hc.order⟩, hb⟩
  | _, here, .filter h hp => by
      obtain ⟨hc, hb⟩ := h.layout .joins
      refine LaidOutObeys.fit ?_ _ here .filter
      exact ⟨⟨hc.joins, by simpa using hp, hc.grouping, hc.order⟩, hb⟩
  | _, here, .join h hj => by
      obtain ⟨hc, hb⟩ := h.layout .base
      refine LaidOutObeys.fit ?_ _ here .joins
      exact ⟨⟨by simpa using hj, hc.filter, hc.grouping, hc.order⟩, hb⟩
  | _, _, .having _ _ => ⟨.empty, .strayHaving⟩

theorem Obeys.block? {q : Query} (h : q.Obeys R) {block : Block} (hb : q.block? = some block) :
    block.Obeys R := by
  cases h with
  | select h hs ha =>
      cases hb
      exact .mk (h.layout .order).1 (h.layout .order).2 hs ha
  | _ => cases hb

end Query

end QueryCompiler
