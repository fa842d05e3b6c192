import QueryCompiler.Proofs.Likeness.Change

/-! # `QueryCompiler.Proofs.Likeness.Identities` — one query, two supplies of identities

A query that is compiled twice is given other identities each time.  The nodes that it shares with
its surroundings (those in its scope, or fixed in a statement) keep theirs; all others are built
anew, in the same order in both runs.  So two supplies that hand out nothing twice and nothing that
is known already have a matching: a known identity stands for itself, and what one supply hands
out at some turn stands for what the other hands out at that turn.

Under this matching everything that is known is like itself, and a query is like itself anyway,
since it holds no identity at all.
-/

namespace QueryCompiler

/-! ## The identities within reach -/

mutual

/-- The identities of the nodes of an expression, and of those within reach of its subqueries. -/
def Expr.ids : Expr → List NodeId
  | .literal id _ | .null id | .column id _ _ | .parameter id _ | .countStar id
  | .unknown id _ => [id]
  | .binary id _ left right => id :: (left.ids ++ right.ids)
  | .unary id _ operand => id :: operand.ids
  | .compare id _ left right => id :: (left.ids ++ right.ids)
  | .aggregate id _ _ operand => id :: operand.ids
  | .case id condition positive negative =>
    id :: (condition.ids ++ (positive.ids ++ negative.ids))
  | .like id value pattern => id :: (value.ids ++ pattern.ids)
  | .inList id needle values => id :: (needle.ids ++ Expr.idsAll values)
  | .inQuery id needle _ scope => id :: (needle.ids ++ Entry.idsAll scope)

def Expr.idsAll : List Expr → List NodeId
  | [] => []
  | e :: es => e.ids ++ Expr.idsAll es

def Row.ids : Row → List NodeId
  | .expr e => e.ids
  | .tuple rows => Row.idsAll rows
  | .table _ columns => Expr.idsAll columns
  | .group key source => key.ids ++ source.ids
  | .absent => []

def Row.idsAll : List Row → List NodeId
  | [] => []
  | row :: rows => row.ids ++ Row.idsAll rows

def Entry.ids : Entry → List NodeId
  | .named _ row => row.ids
  | .clause row => row.ids
  | .joined outer inner => outer.ids ++ inner.ids

def Entry.idsAll : List Entry → List NodeId
  | [] => []
  | entry :: entries => entry.ids ++ Entry.idsAll entries

end

def Scope.ids (scope : Scope) : List NodeId := Entry.idsAll scope

/-- The identities of what a column is set to; what is computed is built anew. -/
def Assigned.ids : Assigned → List NodeId
  | .computed _ => []
  | .fixed e => e.ids

def Statement.ids : Statement → List NodeId
  | .delete _ => []
  | .update s => s.assignments.flatMap (·.2.ids)
  | .insert s => s.values.flatMap (·.2.ids)

/-! ## A query is like itself -/

section

variable {V : Value → Value → Prop}

mutual

theorem ExprTerm.Alike.refl (hV : ∀ v, V v v) : ∀ t : ExprTerm, t.Alike V t
  | .literal v => .literal (hV v)
  | .null => .null
  | .column .. => .column
  | .parameter _ => .parameter
  | .named row _ => .named (RowTerm.Alike.refl hV row)
  | .qualified row _ _ => .qualified (RowTerm.Alike.refl hV row)
  | .field row _ => .field (RowTerm.Alike.refl hV row)
  | .binary _ left right => .binary (ExprTerm.Alike.refl hV left) (ExprTerm.Alike.refl hV right)
  | .unary _ operand => .unary (ExprTerm.Alike.refl hV operand)
  | .compare _ left right => .compare (ExprTerm.Alike.refl hV left) (ExprTerm.Alike.refl hV right)
  | .aggregate _ _ operand => .aggregate (ExprTerm.Alike.refl hV operand)
  | .countStar => .countStar
  | .case condition positive negative => .case (ExprTerm.Alike.refl hV condition)
      (ExprTerm.Alike.refl hV positive) (ExprTerm.Alike.refl hV negative)
  | .like value pattern => .like (ExprTerm.Alike.refl hV value) (ExprTerm.Alike.refl hV pattern)
  | .inList needle values =>
      .inList (ExprTerm.Alike.refl hV needle) (ExprTerm.AlikeAll.refl hV values)
  | .inQuery needle query => .inQuery (ExprTerm.Alike.refl hV needle) (Query.Alike.refl hV query)
  | .over row body => .over (RowTerm.Alike.refl hV row) (ExprTerm.Alike.refl hV body)

theorem ExprTerm.AlikeAll.refl (hV : ∀ v, V v v) : ∀ ts : List ExprTerm, ExprTerm.AlikeAll V ts ts
  | [] => .nil
  | t :: ts => .cons (ExprTerm.Alike.refl hV t) (ExprTerm.AlikeAll.refl hV ts)

theorem RowTerm.Alike.refl (hV : ∀ v, V v v) : ∀ t : RowTerm, t.Alike V t
  | .slot .. => .slot
  | .absent => .absent
  | .tuple rows => .tuple (RowTerm.AlikeAll.refl hV rows)
  | .item row _ => .item (RowTerm.Alike.refl hV row)
  | .key row => .key (RowTerm.Alike.refl hV row)
  | .source row => .source (RowTerm.Alike.refl hV row)
  | .group key source => .group (RowTerm.Alike.refl hV key) (RowTerm.Alike.refl hV source)
  | .table _ => .table
  | .get _ => .get
  | .bind _ value body => .bind (RowTerm.Alike.refl hV value) (RowTerm.Alike.refl hV body)
  | .expr e => .expr (ExprTerm.Alike.refl hV e)

theorem RowTerm.AlikeAll.refl (hV : ∀ v, V v v) : ∀ ts : List RowTerm, RowTerm.AlikeAll V ts ts
  | [] => .nil
  | t :: ts => .cons (RowTerm.Alike.refl hV t) (RowTerm.AlikeAll.refl hV ts)

theorem SortTerm.AlikeAll.refl (hV : ∀ v, V v v) : ∀ ts : List SortTerm, SortTerm.AlikeAll V ts ts
  | [] => .nil
  | .mk _ key :: ts => .cons (ExprTerm.Alike.refl hV key) (SortTerm.AlikeAll.refl hV ts)

theorem JoinTerm.AlikeAll.refl (hV : ∀ v, V v v) : ∀ ts : List JoinTerm, JoinTerm.AlikeAll V ts ts
  | [] => .nil
  | .mk _ _ outer inner result _ :: ts => .cons (ExprTerm.Alike.refl hV outer)
      (ExprTerm.Alike.refl hV inner) (RowTerm.Alike.refl hV result) (JoinTerm.AlikeAll.refl hV ts)

theorem ExprTerm.AlikeOption.refl (hV : ∀ v, V v v) : ∀ t : Option ExprTerm,
    ExprTerm.AlikeOption V t t
  | none => .none
  | some t => .some (ExprTerm.Alike.refl hV t)

theorem Query.Alike.refl (hV : ∀ v, V v v) : ∀ q : Query, q.Alike V q
  | .table _ => .table
  | .derived inner => .derived (Query.Alike.refl hV inner)
  | .select source stages _ =>
      .select (Query.Alike.refl hV source) (RowTerm.AlikeAll.refl hV stages)
  | .filter source predicate =>
      .filter (Query.Alike.refl hV source) (ExprTerm.Alike.refl hV predicate)
  | .orderBy source keys => .orderBy (Query.Alike.refl hV source) (SortTerm.AlikeAll.refl hV keys)
  | .groupBy source keys condition => .groupBy (Query.Alike.refl hV source)
      (ExprTerm.AlikeAll.refl hV keys) (ExprTerm.AlikeOption.refl hV condition)
  | .having source predicate =>
      .having (Query.Alike.refl hV source) (ExprTerm.Alike.refl hV predicate)
  | .join source joins => .join (Query.Alike.refl hV source) (JoinTerm.AlikeAll.refl hV joins)

end

end

/-! ## What is known is like itself -/

section

variable {M : Matching}

mutual

theorem Expr.Alike.refl (hv : ∀ v, M.values v v) : ∀ e : Expr, (∀ i ∈ e.ids, M.ids i i) →
    e.Alike M e
  | .literal .., h => .literal (h _ List.mem_cons_self) (hv _)
  | .null _, h => .null (h _ List.mem_cons_self)
  | .column .., h => .column (h _ List.mem_cons_self)
  | .parameter .., h => .parameter (h _ List.mem_cons_self)
  | .countStar _, h => .countStar (h _ List.mem_cons_self)
  | .unknown .., h => .unknown (h _ List.mem_cons_self)
  | .unary _ _ operand, h => by
      obtain ⟨hi, ho⟩ := List.forall_mem_cons.1 h
      exact .unary hi (Expr.Alike.refl hv operand ho)
  | .aggregate _ _ _ operand, h => by
      obtain ⟨hi, ho⟩ := List.forall_mem_cons.1 h
      exact .aggregate hi (Expr.Alike.refl hv operand ho)
  | .binary _ _ left right, h => by
      simp only [Expr.ids, List.forall_mem_cons, List.forall_mem_append] at h
      exact .binary h.1 (Expr.Alike.refl hv left h.2.1) (Expr.Alike.refl hv right h.2.2)
  | .compare _ _ left right, h => by
      simp only [Expr.ids, List.forall_mem_cons, List.forall_mem_append] at h
      exact .compare h.1 (Expr.Alike.refl hv left h.2.1) (Expr.Alike.refl hv right h.2.2)
  | .like _ value pattern, h => by
      simp only [Expr.ids, List.forall_mem_cons, List.forall_mem_append] at h
      exact .like h.1 (Expr.Alike.refl hv value h.2.1) (Expr.Alike.refl hv pattern h.2.2)
  | .case _ condition positive negative, h => by
      simp only [Expr.ids, List.forall_mem_cons, List.forall_mem_append] at h
      exact .case h.1 (Expr.Alike.refl hv condition h.2.1) (Expr.Alike.refl hv positive h.2.2.1)
        (Expr.Alike.refl hv negative h.2.2.2)
  | .inList _ needle values, h => by
      simp only [Expr.ids, List.forall_mem_cons, List.forall_mem_append] at h
      exact .inList h.1 (Expr.Alike.refl hv needle h.2.1) (Expr.AlikeAll.refl hv values h.2.2)
  | .inQuery _ needle query scope, h => by
      simp only [Expr.ids, List.forall_mem_cons, List.forall_mem_append] at h
      exact .inQuery h.1 (Expr.Alike.refl hv needle h.2.1) (Query.Alike.refl hv query)
        (Entry.AlikeAll.refl hv scope h.2.2)

theorem Expr.AlikeAll.refl (hv : ∀ v, M.values v v) : ∀ es : List Expr,
    (∀ i ∈ Expr.idsAll es, M.ids i i) → Expr.AlikeAll M es es
  | [], _ => .nil
  | e :: es, h => by
      rw [Expr.idsAll, List.forall_mem_append] at h
      exact .cons (Expr.Alike.refl hv e h.1) (Expr.AlikeAll.refl hv es h.2)

theorem Row.Alike.refl (hv : ∀ v, M.values v v) : ∀ row : Row, (∀ i ∈ row.ids, M.ids i i) →
    row.Alike M row
  | .expr e, h => .expr (Expr.Alike.refl hv e h)
  | .tuple rows, h => .tuple (Row.AlikeAll.refl hv rows h)
  | .table _ columns, h => .table (Expr.AlikeAll.refl hv columns h)
  | .group key source, h => by
      rw [Row.ids, List.forall_mem_append] at h
      exact .group (Row.Alike.refl hv key h.1) (Row.Alike.refl hv source h.2)
  | .absent, _ => .absent

theorem Row.AlikeAll.refl (hv : ∀ v, M.values v v) : ∀ rows : List Row,
    (∀ i ∈ Row.idsAll rows, M.ids i i) → Row.AlikeAll M rows rows
  | [], _ => .nil
  | row :: rows, h => by
      rw [Row.idsAll, List.forall_mem_append] at h
      exact .cons (Row.Alike.refl hv row h.1) (Row.AlikeAll.refl hv rows h.2)

theorem Entry.Alike.refl (hv : ∀ v, M.values v v) : ∀ entry : Entry,
    (∀ i ∈ entry.ids, M.ids i i) → entry.Alike M entry
  | .named _ row, h => .named (Row.Alike.refl hv row h)
  | .clause row, h => .clause (Row.Alike.refl hv row h)
  | .joined outer inner, h => by
      rw [Entry.ids, List.forall_mem_append] at h
      exact .joined (Row.Alike.refl hv outer h.1) (Row.Alike.refl hv inner h.2)

theorem Entry.AlikeAll.refl (hv : ∀ v, M.values v v) : ∀ entries : List Entry,
    (∀ i ∈ Entry.idsAll entries, M.ids i i) → Entry.AlikeAll M entries entries
  | [], _ => .nil
  | entry :: entries, h => by
      rw [Entry.idsAll, List.forall_mem_append] at h
      exact .cons (Entry.Alike.refl hv entry h.1) (Entry.AlikeAll.refl hv entries h.2)

end

theorem Assigned.Alike.refl (hv : ∀ v, M.values v v) (a : Assigned) (h : ∀ i ∈ a.ids, M.ids i i) :
    a.Alike M a := by
  cases a with
  | computed term => exact .computed (ExprTerm.Alike.refl hv term)
  | fixed e => exact .fixed (Expr.Alike.refl hv e h)

theorem Statement.Alike.refl (hv : ∀ v, M.values v v) (st : Statement)
    (h : ∀ i ∈ st.ids, M.ids i i) : st.Alike M st := by
  cases st with
  | delete s => exact .delete (ExprTerm.AlikeAll.refl hv s.filters)
  | update s =>
      refine .update (List.forall₂_same.2 fun a ha => ⟨rfl, ?_⟩)
        (ExprTerm.AlikeAll.refl hv s.filters)
      exact Assigned.Alike.refl hv a.2 fun i hi => h i (List.mem_flatMap.2 ⟨a, ha, hi⟩)
  | insert s =>
      refine .insert (List.forall₂_same.2 fun a ha => ⟨rfl, ?_⟩)
      exact Expr.Alike.refl hv a.2 fun i hi => h i (List.mem_flatMap.2 ⟨a, ha, hi⟩)

end

/-! ## Two supplies -/

/-- Nothing is handed out twice, and nothing that is known. -/
structure FreshIds (known : List NodeId) (ids : Nat → NodeId) : Prop where
  injective : Function.Injective ids
  new : ∀ n, ids n ∉ known

/-- Known identities stand for themselves, and those handed out at one turn for each other. -/
def Matching.ofFresh {known : List NodeId} {ids ids' : Nat → NodeId} (h : FreshIds known ids)
    (h' : FreshIds known ids') : Matching where
  ids i i' := (i = i' ∧ i ∈ known) ∨ ∃ n, i = ids n ∧ i' = ids' n
  values := Eq
  ids_unique := by
    rintro a b a' b' (⟨rfl, ha⟩ | ⟨m, rfl, rfl⟩) (⟨rfl, hb⟩ | ⟨n, rfl, rfl⟩)
    · rfl
    · constructor
      · rintro rfl
        exact absurd ha (h.new n)
      · rintro rfl
        exact absurd ha (h'.new n)
    · constructor
      · rintro rfl
        exact absurd hb (h.new m)
      · rintro rfl
        exact absurd hb (h'.new m)
    · rw [h.injective.eq_iff, h'.injective.eq_iff]
  values_null := by
    rintro v _ rfl
    rfl

/-- A session at its beginning, with the identities it will hand out. -/
def Session.handingOut (ids : Nat → NodeId) : Session := { supply := ⟨ids, 0⟩ }

theorem Supply.Alike.ofFresh {known : List NodeId} {s s' : Supply} (h : FreshIds known s.upcoming)
    (h' : FreshIds known s'.upcoming) : s.Alike (.ofFresh h h') s' :=
  fun n => .inr ⟨n, rfl, rfl⟩

end QueryCompiler
