import QueryCompiler.Proofs.Likeness.Exprs

/-! # `QueryCompiler.Proofs.Relabelling.Building` — building from given identities

A term cannot look at the identities it is given: it puts each of them into one node and asks for a
number of them that depends on nothing else.  So what it builds is settled by the identities it
takes, however the supply goes on behind them.

    b makes a of xs      f a makes c of ys
    ---------------------------------------
    b >>= f makes c of xs ++ ys
-/

namespace QueryCompiler

/-! ## The next identities -/

/-- The next identities, in order. -/
def Supply.next (s : Supply) (k : Nat) : List NodeId := (List.range k).map s.upcoming

/-- The supply after so many identities have been handed out. -/
def Supply.skip (s : Supply) (k : Nat) : Supply := ⟨s.ids, s.used + k⟩

@[simp] theorem Supply.length_next (s : Supply) (k : Nat) : (s.next k).length = k := by
  simp [Supply.next]

theorem Supply.upcoming_skip (s : Supply) (k n : Nat) :
    (s.skip k).upcoming n = s.upcoming (k + n) := by
  simp only [Supply.upcoming, Supply.skip]
  congr 1
  omega

theorem Supply.skip_skip (s : Supply) (k m : Nat) : (s.skip k).skip m = s.skip (k + m) := by
  simp only [Supply.skip, Nat.add_assoc]

theorem Supply.next_add (s : Supply) (k m : Nat) :
    s.next (k + m) = s.next k ++ (s.skip k).next m := by
  simp only [Supply.next, List.range_add, List.map_append, List.map_map]
  congr 1
  exact List.map_congr_left fun n _ => (s.upcoming_skip k n).symm

/-- A supply that starts with the given identities and has handed out none yet. -/
def Supply.listing (ids : List NodeId) : Supply := ⟨fun n => ids.getD n 0, 0⟩

theorem Supply.next_listing (ids : List NodeId) : (Supply.listing ids).next ids.length = ids := by
  refine List.ext_getElem (by simp) fun n hn hn' => ?_
  simp [Supply.next, Supply.upcoming, Supply.listing, hn']

/-! ## What a computation makes -/

/-- Of exactly these identities the computation makes this, whatever the supply holds behind them. -/
def Build.Makes {α : Type} (b : Build α) (ids : List NodeId) (a : α) : Prop :=
  ∀ s : Supply, s.next ids.length = ids → b s = (a, s.skip ids.length)

/-- What the computation makes is settled by the identities it takes. -/
def Build.Settled {α : Type} (b : Build α) : Prop :=
  ∀ s : Supply, ∃ k, b.Makes (s.next k) (b s).1

variable {α β : Type}

namespace Build.Makes

theorem run {b : Build α} {s : Supply} {k : Nat} {a : α} (h : b.Makes (s.next k) a) :
    b s = (a, s.skip k) := by
  simpa using h s (by rw [Supply.length_next])

theorem exists_run {b : Build α} {ids : List NodeId} {a : α} (h : b.Makes ids a) :
    ∃ s, (b s).1 = a :=
  ⟨.listing ids, congrArg Prod.fst (h _ (Supply.next_listing ids))⟩

protected theorem pure (a : α) : (pure a : Build α).Makes [] a := fun _ _ => rfl

theorem node (make : NodeId → α) (i : NodeId) : (Build.node make).Makes [i] (make i) := by
  intro s hs
  have hi : s.upcoming 0 = i := List.head_eq_of_cons_eq hs
  rw [Supply.upcoming, Nat.zero_add] at hi
  exact hi ▸ rfl

protected theorem bind {b : Build α} {f : α → Build β} {xs ys : List NodeId} {a : α} {c : β}
    (hb : b.Makes xs a) (hf : (f a).Makes ys c) : (b >>= f).Makes (xs ++ ys) c := by
  intro s hs
  rw [List.length_append, Supply.next_add] at hs
  have hfirst := hb s (List.append_inj_left hs (by simp))
  have hsecond := hf (s.skip xs.length) (List.append_inj_right hs (by simp))
  calc (b >>= f) s = f (b s).1 (b s).2 := rfl
    _ = (c, s.skip (xs ++ ys).length) := by
      rw [hfirst, hsecond, Supply.skip_skip, List.length_append]

end Build.Makes

namespace Build.Settled

protected theorem pure (a : α) : (pure a : Build α).Settled := fun _ => ⟨0, .pure a⟩

theorem node (make : NodeId → α) : (Build.node make).Settled := by
  intro s
  have h : s.next 1 = [s.ids s.used] := by simp [Supply.next, Supply.upcoming]
  exact ⟨1, h ▸ .node make _⟩

protected theorem bind {b : Build α} {f : α → Build β} (hb : b.Settled) (hf : ∀ a, (f a).Settled) :
    (b >>= f).Settled := by
  intro s
  obtain ⟨k, hk⟩ := hb s
  obtain ⟨m, hm⟩ := hf (b s).1 (b s).2
  have hs : (b s).2 = s.skip k := congrArg Prod.snd hk.run
  refine ⟨k + m, ?_⟩
  rw [Supply.next_add, ← hs]
  exact hk.bind hm

/-- From supplies that hand out the same, a settled computation makes the same and leaves supplies
that hand out the same. -/
theorem congr {b : Build α} (hb : b.Settled) {s s' : Supply} (h : s'.upcoming = s.upcoming) :
    (b s').1 = (b s).1 ∧ (b s').2.upcoming = (b s).2.upcoming := by
  obtain ⟨k, hk⟩ := hb s
  have hs' : b.Makes (s'.next k) (b s).1 := by rwa [Supply.next, h]
  rw [hs'.run]
  refine ⟨rfl, funext fun n => ?_⟩
  rw [hk.run, Supply.upcoming_skip, Supply.upcoming_skip, h]

end Build.Settled

/-! ## Terms -/

theorem Row.orUnknown_settled (found : Option Expr) (name : String) :
    (Row.orUnknown found name).Settled := by
  cases found with
  | none => exact .node _
  | some e => exact .pure e

theorem Table.columnNodes_settled (table : String) (names : List String) :
    (Table.columnNodes table names).Settled := by
  induction names with
  | nil => exact .pure _
  | cons name names ih => exact (Build.Settled.node _).bind fun _ => ih.bind fun _ => .pure _

theorem Table.instantiate_settled (t : Table) : t.instantiate.Settled :=
  columnNodes_settled t.name t.columns

mutual

/-- The node that a term builds is settled by the identities it takes. -/
theorem ExprTerm.eval_settled : ∀ (t : ExprTerm) (scope : Scope), (t.eval scope).Settled
  | .literal _, _ | .null, _ | .column .., _ | .parameter _, _ | .countStar, _ => .node _
  | .named row _, scope | .qualified row _ _, scope | .field row _, scope =>
      (row.eval_settled scope).bind fun _ => Row.orUnknown_settled _ _
  | .unary _ operand, scope | .aggregate _ _ operand, scope | .inQuery operand _, scope =>
      (operand.eval_settled scope).bind fun _ => .node _
  | .binary _ left right, scope | .compare _ left right, scope | .like left right, scope =>
      (left.eval_settled scope).bind fun _ => (right.eval_settled scope).bind fun _ => .node _
  | .case condition positive negative, scope =>
      (condition.eval_settled scope).bind fun _ => (positive.eval_settled scope).bind fun _ =>
        (negative.eval_settled scope).bind fun _ => .node _
  | .inList needle values, scope =>
      (needle.eval_settled scope).bind fun _ =>
        (ExprTerm.evalAll_settled values scope).bind fun _ => .node _
  | .over row body, scope => (row.eval_settled scope).bind fun _ => body.eval_settled _

theorem ExprTerm.evalAll_settled : ∀ (ts : List ExprTerm) (scope : Scope),
    (ExprTerm.evalAll ts scope).Settled
  | [], _ => .pure _
  | t :: ts, scope =>
      (t.eval_settled scope).bind fun _ => (ExprTerm.evalAll_settled ts scope).bind fun _ => .pure _

theorem RowTerm.eval_settled : ∀ (t : RowTerm) (scope : Scope), (t.eval scope).Settled
  | .slot .., _ | .absent, _ | .get _, _ => .pure _
  | .tuple rows, scope => (RowTerm.evalAll_settled rows scope).bind fun _ => .pure _
  | .item row _, scope | .key row, scope | .source row, scope =>
      (row.eval_settled scope).bind fun _ => .pure _
  | .group key source, scope =>
      (key.eval_settled scope).bind fun _ => (source.eval_settled scope).bind fun _ => .pure _
  | .table t, _ => t.instantiate_settled.bind fun _ => .pure _
  | .bind _ value body, scope => (value.eval_settled scope).bind fun _ => body.eval_settled _
  | .expr e, scope => (e.eval_settled scope).bind fun _ => .pure _

theorem RowTerm.evalAll_settled : ∀ (ts : List RowTerm) (scope : Scope),
    (RowTerm.evalAll ts scope).Settled
  | [], _ => .pure _
  | t :: ts, scope =>
      (t.eval_settled scope).bind fun _ => (RowTerm.evalAll_settled ts scope).bind fun _ => .pure _

end

theorem RowTerm.runStages_settled (scope : Scope) (stages : List RowTerm) :
    ∀ row : Row, (RowTerm.runStages scope stages row).Settled := by
  induction stages with
  | nil => exact fun row => .pure row
  | cons stage stages ih => exact fun row => (stage.eval_settled _).bind fun row => ih row

end QueryCompiler
