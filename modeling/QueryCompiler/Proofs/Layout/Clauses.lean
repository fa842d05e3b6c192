import QueryCompiler.Proofs.Layout.StrayHaving
import QueryCompiler.Proofs.Visits

/-! # `QueryCompiler.Proofs.Layout.Clauses` — every clause goes to one statement

Laying out a query takes it apart into blocks.  Each clause of the query, from the outside in, goes to
exactly one of them, and nothing else does.

Which blocks there are can be told without laying out anything.  From the body of a statement an
ordering, a grouping, a condition and joins are taken off, each if it is there; if what is left is no
table, it becomes a statement of its own, under a new projection unless it is one already.  Seen so,
the statements of a query do not stand inside each other, since the new projections are not part of
it; that there are finitely many follows from the depth of their bodies.
-/

namespace QueryCompiler

/-- The place that comes next, further in. -/
def Place.next : Place → Place
  | .order => .grouping
  | .grouping => .filter
  | .filter => .joins
  | .joins | .base => .base

/-! ## Blocks inside each other -/

mutual

/-- A block and those of the derived tables in it, outermost first. -/
def Block.nested : Block → List Block
  | .mk body clauses base stages aliases => .mk body clauses base stages aliases :: base.nested

def Base.nested : Base → List Block
  | .table _ | .strayHaving _ => []
  | .derived block => block.nested

end

theorem Block.nested_eq (block : Block) : block.nested = block :: block.base.nested := by
  cases block
  rfl

theorem Block.stray?_eq (block : Block) : block.stray? = block.base.stray? := by
  cases block
  rfl

/-! ## Clauses -/

/-- What a clause says, whatever it stands on. -/
inductive Clause where
  | order (keys : List SortTerm)
  | grouping (grouping : Grouping)
  | filter (predicate : ExprTerm)
  | joins (joins : List JoinTerm)

/-- The outermost clause of a query, projections and tables aside. -/
def Query.clause? : Query → Option Clause
  | .orderBy _ keys => some (.order keys)
  | .groupBy _ keys condition => some (.grouping ⟨keys, condition⟩)
  | .filter _ predicate => some (.filter predicate)
  | .join _ joins => some (.joins joins)
  | _ => none

namespace Clauses

/-- The clauses of a statement, outermost first. -/
def all (c : Clauses) : List Clause :=
  c.order.toList.map .order ++ (c.grouping.toList.map .grouping ++
    (c.filter.toList.map .filter ++ c.joins.toList.map .joins))

/-- Only the places from `here` inwards are taken. -/
structure Within (here : Place) (c : Clauses) : Prop where
  order : Place.order.rank < here.rank → c.order = none
  grouping : Place.grouping.rank < here.rank → c.grouping = none
  filter : Place.filter.rank < here.rank → c.filter = none
  joins : Place.joins.rank < here.rank → c.joins = none

theorem within_none (here : Place) : Within here {} :=
  ⟨fun _ => rfl, fun _ => rfl, fun _ => rfl, fun _ => rfl⟩

variable {c : Clauses}

theorem Within.outwards {here there : Place} (h : c.Within there) (hle : here.rank ≤ there.rank) :
    c.Within here :=
  ⟨fun hlt => h.order (Nat.lt_of_lt_of_le hlt hle), fun hlt => h.grouping (Nat.lt_of_lt_of_le hlt hle),
    fun hlt => h.filter (Nat.lt_of_lt_of_le hlt hle), fun hlt => h.joins (Nat.lt_of_lt_of_le hlt hle)⟩

theorem Within.all_order (h : c.Within .grouping) (keys : List SortTerm) :
    { c with order := some keys }.all = .order keys :: c.all := by
  simp [all, h.order (by decide)]

theorem Within.all_grouping (h : c.Within .filter) (grouping : Grouping) :
    { c with grouping := some grouping }.all = .grouping grouping :: c.all := by
  simp [all, h.order (by decide), h.grouping (by decide)]

theorem Within.all_filter (h : c.Within .joins) (predicate : ExprTerm) :
    { c with filter := some predicate }.all = .filter predicate :: c.all := by
  simp [all, h.order (by decide), h.grouping (by decide), h.filter (by decide)]

theorem Within.all_joins (h : c.Within .base) (joins : List JoinTerm) :
    { c with joins := some joins }.all = .joins joins :: c.all := by
  simp [all, h.order (by decide), h.grouping (by decide), h.filter (by decide), h.joins (by decide)]

end Clauses

namespace Query

theorem within_fit {here there : Place} {q : Query} {content : Clauses × Base}
    (h : here.rank ≤ there.rank → content.1.Within here) : (fit here there q content).1.Within here := by
  unfold fit
  split
  · next hfit => exact h hfit
  · exact Clauses.within_none here

/-- A layout takes no places further out than it may. -/
theorem layout_within : ∀ (q : Query) (here : Place), (q.layout here).1.Within here
  | .table _, here | .select .., here | .having .., here => Clauses.within_none here
  | .derived inner, here => by cases inner <;> exact Clauses.within_none here
  | .orderBy source _, _ => within_fit fun hfit =>
      { (layout_within source .grouping).outwards (Nat.le_trans hfit (by decide)) with
        order := fun hlt => absurd hlt (Nat.not_lt_of_le hfit) }
  | .groupBy source _ _, _ => within_fit fun hfit =>
      { (layout_within source .filter).outwards (Nat.le_trans hfit (by decide)) with
        grouping := fun hlt => absurd hlt (Nat.not_lt_of_le hfit) }
  | .filter source _, _ => within_fit fun hfit =>
      { (layout_within source .joins).outwards (Nat.le_trans hfit (by decide)) with
        filter := fun hlt => absurd hlt (Nat.not_lt_of_le hfit) }
  | .join source _, _ => within_fit fun hfit =>
      { (layout_within source .base).outwards (Nat.le_trans hfit (by decide)) with
        joins := fun hlt => absurd hlt (Nat.not_lt_of_le hfit) }

/-- The clauses of what has been laid out, outermost first. -/
def clausesOf (content : Clauses × Base) : List Clause :=
  content.1.all ++ content.2.nested.flatMap (·.clauses.all)

theorem clausesOf_fit (here there : Place) (q : Query) (content : Clauses × Base) :
    clausesOf (fit here there q content) = clausesOf content := by
  unfold fit
  split <;> rfl

/-- The layout of a query has each of its clauses once, and no others. -/
theorem clausesOf_layout : ∀ (q : Query) (here : Place), (q.layout here).2.stray? = none →
    clausesOf (q.layout here) = q.spine.filterMap clause?
  | .table _, _, _ => rfl
  | .having .., _, h => absurd h (Option.some_ne_none _)
  | .select source _ _, _, h => clausesOf_layout source .order h
  | .derived inner, here, h => by
      by_cases hinner : inner.head = .select
      · rw [layout_derived_of_select hinner here .order] at h ⊢
        exact clausesOf_layout inner .order h
      · rw [layout_derived hinner here] at h ⊢
        exact clausesOf_layout inner .order h
  | .orderBy source keys, here, h => by
      have ih := clausesOf_layout source .grouping (by rwa [layout, stray?_fit] at h)
      rw [layout, clausesOf_fit, clausesOf, (layout_within source .grouping).all_order]
      exact congrArg (_ :: ·) ih
  | .groupBy source keys condition, here, h => by
      have ih := clausesOf_layout source .filter (by rwa [layout, stray?_fit] at h)
      rw [layout, clausesOf_fit, clausesOf, (layout_within source .filter).all_grouping]
      exact congrArg (_ :: ·) ih
  | .filter source predicate, here, h => by
      have ih := clausesOf_layout source .joins (by rwa [layout, stray?_fit] at h)
      rw [layout, clausesOf_fit, clausesOf, (layout_within source .joins).all_filter]
      exact congrArg (_ :: ·) ih
  | .join source joins, here, h => by
      have ih := clausesOf_layout source .base (by rwa [layout, stray?_fit] at h)
      rw [layout, clausesOf_fit, clausesOf, (layout_within source .base).all_joins]
      exact congrArg (_ :: ·) ih

theorem clauses_nested_of_block {q : Query} {block : Block} (h : q.block? = some block)
    (hstray : block.stray? = none) :
    block.nested.flatMap (·.clauses.all) = q.spine.filterMap clause? := by
  cases q with
  | select source stages aliases =>
      obtain rfl := Option.some.inj h
      exact clausesOf_layout source .order hstray
  | _ => exact absurd h.symm (Option.some_ne_none _)

/-! ## Statements -/

/-- The query without its outermost clause, if that belongs to the place. -/
def without : Place → Query → Query
  | .order, .orderBy source _ => source
  | .grouping, .groupBy source _ _ => source
  | .filter, .filter source _ => source
  | .joins, .join source _ => source
  | _, q => q

/-- What is left of a body when the clauses of one statement are taken off. -/
def peel (q : Query) : Query := (((q.without .order).without .grouping).without .filter).without .joins

def body : Query → Query
  | .select source _ _ => source
  | q => q

/-- The statement that a base is read from, if it is neither a table nor cannot be read from. -/
def statement? : Query → Option Query
  | .table _ | .having .. => none
  | .select source stages aliases | .derived (.select source stages aliases) =>
    some (.select source stages aliases)
  | .derived inner => some inner.passThrough
  | q => some q.passThrough

/-- A statement and those that it reads from, outermost first. -/
inductive Statements : Query → List Query → Prop
  | last {q} : q.body.peel.statement? = none → Statements q [q]
  | derived {q next rest} : q.body.peel.statement? = some next → Statements next rest →
      Statements q (q :: rest)

theorem depth_without_le (here : Place) (q : Query) : (q.without here).depth ≤ q.depth := by
  fun_cases without here q <;> simp [depth]

theorem depth_body_le {q next : Query} (h : q.statement? = some next) :
    next.body.depth ≤ q.depth := by
  cases q with
  | table | having => exact absurd h.symm (Option.some_ne_none _)
  | derived inner =>
      cases inner <;> obtain rfl := Option.some.inj h <;> simp only [passThrough, body, depth] <;> omega
  | _ =>
      obtain rfl := Option.some.inj h
      simp [passThrough, body, depth]

/-- The body of a statement that is read from is not as deep as that of the statement which reads
it: if no clause is taken off, then a projection is, or the query is one kept apart. -/
theorem depth_body_lt {q next : Query} (h : q.peel.statement? = some next) :
    next.body.depth < q.depth := by
  have hle := depth_body_le h
  cases q with
  | table | having => exact absurd h.symm (Option.some_ne_none _)
  | select source stages aliases =>
      obtain rfl := Option.some.inj h
      exact Nat.lt_succ_self _
  | derived inner =>
      cases inner <;> obtain rfl := Option.some.inj h <;> simp only [passThrough, body, depth] <;> omega
  | orderBy source keys =>
      refine Nat.lt_succ_of_le (Nat.le_trans hle (Nat.le_trans (depth_without_le .joins _) ?_))
      exact Nat.le_trans (depth_without_le .filter _) (depth_without_le .grouping source)
  | groupBy source keys condition =>
      refine Nat.lt_succ_of_le (Nat.le_trans hle (Nat.le_trans (depth_without_le .joins _) ?_))
      exact depth_without_le .filter source
  | filter source predicate =>
      exact Nat.lt_succ_of_le (Nat.le_trans hle (depth_without_le .joins source))
  | join source joins => exact Nat.lt_succ_of_le hle

/-- Reading from one statement after another comes to an end. -/
theorem exists_statements (q : Query) : ∃ statements, Statements q statements := by
  induction hn : q.body.depth using Nat.strongRecOn generalizing q with
  | ind n ih =>
      cases hnext : q.body.peel.statement? with
      | none => exact ⟨[q], .last hnext⟩
      | some next =>
          obtain ⟨rest, hrest⟩ := ih _ (hn ▸ depth_body_lt hnext) next rfl
          exact ⟨q :: rest, .derived hnext hrest⟩

theorem Statements.unique {q : Query} {statements statements' : List Query}
    (h : Statements q statements) (h' : Statements q statements') : statements = statements' := by
  induction h generalizing statements' with
  | last hnone =>
      cases h' with
      | last => rfl
      | derived hsome => exact absurd (hnone.symm.trans hsome) (Option.some_ne_none _).symm
  | derived hsome _ ih =>
      cases h' with
      | last hnone => exact absurd (hnone.symm.trans hsome) (Option.some_ne_none _).symm
      | derived hsome' hrest =>
          obtain rfl := Option.some.inj (hsome.symm.trans hsome')
          rw [ih hrest]

/-! ## Statements and blocks -/

/-- What a layout is based on does not depend on the clause that goes to the first place. -/
theorem layout_without (here : Place) (q : Query) :
    (q.layout here).2 = ((q.without here).layout here.next).2 := by
  cases q with
  | derived inner => cases here <;> cases inner <;> rfl
  | _ => cases here <;> rfl

theorem layout_order_peel (q : Query) : (q.layout .order).2 = (q.peel.layout .base).2 := by
  rw [layout_without, Place.next, layout_without, Place.next, layout_without, Place.next, layout_without,
    Place.next, peel]

theorem base_of_block {q : Query} {block : Block} (h : q.block? = some block) :
    block.base = (q.body.peel.layout .base).2 := by
  cases q with
  | select source stages aliases =>
      obtain rfl := Option.some.inj h
      exact layout_order_peel source
  | _ => exact absurd h.symm (Option.some_ne_none _)

/-- A base that is a statement is laid out as the block of this statement. -/
theorem layout_base_of_statement {q next : Query} (h : q.statement? = some next) :
    q.head ≠ .table ∧ ∃ block, next.block? = some block ∧ (q.layout .base).2 = .derived block := by
  cases q with
  | table | having => exact absurd h.symm (Option.some_ne_none _)
  | derived inner =>
      cases inner <;> obtain rfl := Option.some.inj h <;> exact ⟨by simp [head], _, rfl, rfl⟩
  | groupBy _ _ condition =>
      obtain rfl := Option.some.inj h
      refine ⟨?_, _, rfl, rfl⟩
      cases condition <;> simp [head]
  | _ =>
      obtain rfl := Option.some.inj h
      exact ⟨by simp [head], _, rfl, rfl⟩

/-- A base that is no statement is a table, or nothing can be read from it. -/
theorem eq_table_of_no_statement {q : Query} (h : q.statement? = none)
    (hstray : (q.layout .base).2.stray? = none) : ∃ t, q = .table t := by
  cases q with
  | table t => exact ⟨t, rfl⟩
  | having => exact absurd hstray (Option.some_ne_none _)
  | derived inner => cases inner <;> exact absurd h (Option.some_ne_none _)
  | _ => exact absurd h (Option.some_ne_none _)

/-- The blocks of a query are those of its statements, and all of these but the last read from what
is no table. -/
theorem Statements.blocks {q : Query} {statements : List Query} (h : Statements q statements)
    {block : Block} (hblock : q.block? = some block) (hstray : block.stray? = none) :
    statements.map block? = block.nested.map some ∧
      statements.length = statements.countP (fun s => s.body.peel.head ≠ .table) + 1 := by
  induction h generalizing block with
  | @last q hnone =>
      have hbase := base_of_block hblock
      obtain ⟨t, ht⟩ := eq_table_of_no_statement hnone (by rw [← hbase, ← Block.stray?_eq, hstray])
      rw [ht] at hbase
      rw [Block.nested_eq, hbase, List.map_singleton, hblock, List.countP_singleton, ht]
      exact ⟨rfl, rfl⟩
  | @derived q next rest hsome _ ih =>
      have hbase := base_of_block hblock
      obtain ⟨hhead, inner, hinner, hderived⟩ := layout_base_of_statement hsome
      rw [hderived] at hbase
      rw [Block.stray?_eq, hbase] at hstray
      obtain ⟨hblocks, hlength⟩ := ih hinner hstray
      rw [Block.nested_eq, hbase, List.map_cons, List.map_cons, hblock, List.length_cons, hlength]
      refine ⟨congrArg (some block :: ·) hblocks, ?_⟩
      rw [List.countP_cons_of_pos (by exact decide_eq_true hhead)]

end Query

end QueryCompiler
