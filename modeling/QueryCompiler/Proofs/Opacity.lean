import QueryCompiler.Proofs.Lookups.Inventory
import QueryCompiler.Proofs.Nesting
import QueryCompiler.Proofs.Unambiguity.Trees

/-! # `QueryCompiler.Proofs.Opacity` — where the kind of a registered node can be seen

A registered node is written as the field it is read from, whatever its kind.  So of two nodes that
are read from one field either should stand for the other without a difference in the text.  There
is one place where it makes one.  A comparison by `=` or `!=` looks whether an
operand is null before it asks whether the operand is registered:

    z = x     x registered as a0.A, a column       a0.B = a0.A
    z = x     x registered as a0.A, null           a0.B IS NULL

We say when an exchange shows (`Expr.Reveals`), and prove that it does in no other case: the
expression with the other node fails with the same error, or is written the same, in the same course.
-/

namespace QueryCompiler

open CompileM

variable {read : NodeId → Option Reference}

/-! ## Exchanging a node -/

/-- Two nodes that are read from the same field. -/
structure Exchange (read : NodeId → Option Reference) where
  old : Expr
  new : Expr
  field : Reference
  read_old : read old.id = some field
  read_new : read new.id = some field

/-- The new node for the old one, any other node for itself. -/
def Expr.swap (ρ : Exchange read) (e : Expr) : Expr := if e.id = ρ.old.id then ρ.new else e

mutual

/-- The expression with the new node wherever the old one stands.  The nodes around it keep their
identities, and what a subquery sees stays as it is. -/
def Expr.exchange (ρ : Exchange read) : Expr → Expr
  | .binary id op left right => .swap ρ (.binary id op (left.exchange ρ) (right.exchange ρ))
  | .unary id op operand => .swap ρ (.unary id op (operand.exchange ρ))
  | .compare id op left right => .swap ρ (.compare id op (left.exchange ρ) (right.exchange ρ))
  | .aggregate id func distinct operand =>
    .swap ρ (.aggregate id func distinct (operand.exchange ρ))
  | .case id condition positive negative =>
    .swap ρ (.case id (condition.exchange ρ) (positive.exchange ρ) (negative.exchange ρ))
  | .like id value pattern => .swap ρ (.like id (value.exchange ρ) (pattern.exchange ρ))
  | .inList id needle values => .swap ρ (.inList id (needle.exchange ρ) (Expr.exchangeAll ρ values))
  | .inQuery id needle query scope => .swap ρ (.inQuery id (needle.exchange ρ) query scope)
  | e => .swap ρ e

def Expr.exchangeAll (ρ : Exchange read) : List Expr → List Expr
  | [] => []
  | e :: es => e.exchange ρ :: Expr.exchangeAll ρ es

end

/-- The node itself, with the new node wherever the old one stands inside it. -/
def Expr.inside (ρ : Exchange read) : Expr → Expr
  | .binary id op left right => .binary id op (left.exchange ρ) (right.exchange ρ)
  | .unary id op operand => .unary id op (operand.exchange ρ)
  | .compare id op left right => .compare id op (left.exchange ρ) (right.exchange ρ)
  | .aggregate id func distinct operand => .aggregate id func distinct (operand.exchange ρ)
  | .case id condition positive negative =>
    .case id (condition.exchange ρ) (positive.exchange ρ) (negative.exchange ρ)
  | .like id value pattern => .like id (value.exchange ρ) (pattern.exchange ρ)
  | .inList id needle values => .inList id (needle.exchange ρ) (Expr.exchangeAll ρ values)
  | .inQuery id needle query scope => .inQuery id (needle.exchange ρ) query scope
  | e => e

section

variable {ρ : Exchange read} {e e' : Expr}

theorem Expr.exchange_eq : e.exchange ρ = (e.inside ρ).swap ρ := by
  cases e <;> rfl

theorem Expr.inside_id : (e.inside ρ).id = e.id := by
  cases e <;> rfl

theorem Expr.swap_of_eq (h : e.id = ρ.old.id) : e.swap ρ = ρ.new := if_pos h

theorem Expr.swap_of_ne (h : e.id ≠ ρ.old.id) : e.swap ρ = e := if_neg h

theorem Expr.swap_keeps (h : e.id ≠ ρ.old.id) (hid : e'.id = e.id)
    (hnull : e'.isNullLiteral = e.isNullLiteral) :
    (e'.swap ρ).id = e.id ∧ (e'.swap ρ).isNullLiteral = e.isNullLiteral := by
  rw [Expr.swap_of_ne (hid ▸ h)]
  exact ⟨hid, hnull⟩

theorem Expr.exchange_of_eq (h : e.id = ρ.old.id) : e.exchange ρ = ρ.new := by
  cases e <;> exact Expr.swap_of_eq h

/-- Any other node keeps its identity, and is null if and only if it was. -/
theorem Expr.exchange_of_ne (h : e.id ≠ ρ.old.id) :
    (e.exchange ρ).id = e.id ∧ (e.exchange ρ).isNullLiteral = e.isNullLiteral := by
  cases e <;> exact Expr.swap_keeps h rfl rfl

end

/-! ## Comparisons with null -/

inductive Side where
  | left
  | right
deriving DecidableEq

/-- The operand that a comparison with null tests; none, if it is no such comparison. -/
def CompareOp.tested? (op : CompareOp) (left right : Expr) : Option Side :=
  if op.nullTest? = none then none
  else if right.isNullLiteral then some .left
  else if left.isNullLiteral then some .right
  else none

/-- A comparison or a test, from the written forms of both operands. -/
def CompareOp.written (op : CompareOp) : Option Side → Sql.Scalar → Sql.Scalar → Sql.Scalar
  | none, l, r => .compare op l r
  | some .left, l, _ => .nullTest (op.nullTest?.getD false) l
  | some .right, _, r => .nullTest (op.nullTest?.getD false) r

/-- The node is registered or null: it is written at once, and nothing is bound. -/
def Expr.Still (read : NodeId → Option Reference) (e : Expr) : Prop :=
  read e.id ≠ none ∨ e.isNullLiteral = true

/-- The written form of such a node, by where it is read from. -/
def Sql.Scalar.reading : Option Reference → Sql.Scalar
  | some r => .reference r.qualifier r.field
  | none => .null

theorem CompareOp.isNullLiteral_of_tested?_left {op : CompareOp} {left right : Expr}
    (h : op.tested? left right = some .left) : right.isNullLiteral = true := by
  unfold CompareOp.tested? at h
  split_ifs at h with _ hright
  · exact hright
  · cases h

theorem CompareOp.isNullLiteral_of_tested?_right {op : CompareOp} {left right : Expr}
    (h : op.tested? left right = some .right) : left.isNullLiteral = true := by
  unfold CompareOp.tested? at h
  split_ifs at h with _ _ hleft
  · cases h
  · exact hleft

theorem CompareOp.readable_written {op : CompareOp} {side : Option Side} {l r : Sql.Scalar}
    (hl : l.Readable) (hr : r.Readable) : (op.written side l r).Readable := by
  rcases side with _ | _ | _
  · exact .compare hl hr
  · exact .nullTest hl
  · exact .nullTest hr

theorem Sql.Scalar.reading_inj {r r' : Option Reference} :
    Sql.Scalar.reading r = Sql.Scalar.reading r' ↔ r = r' := by
  constructor
  · intro h
    rcases r with _ | ⟨q, f⟩ <;> rcases r' with _ | ⟨q', f'⟩ <;> simp_all [Sql.Scalar.reading]
  · intro h
    rw [h]

section

variable {sub : SubqueryCompiler} {ctx : Context} {s : Session} {e : Expr}

theorem Expr.outcome_still (h : e.Still ctx.referenceOf) :
    outcome (e.compile sub) ctx s = (.ok (.reading (ctx.referenceOf e.id), ctx), s) := by
  obtain ⟨own, hown⟩ := e.exists_own sub
  cases hread : ctx.referenceOf e.id with
  | some r =>
      rw [hown, outcome_registeredOr, hread]
      rfl
  | none =>
      have hnull : e.isNullLiteral = true := h.resolve_left (not_not_intro hread)
      cases e with
      | null id =>
          change ctx.referenceOf id = none at hread
          rw [Expr.compile, outcome_registeredOr, hread]
          rfl
      | literal id value =>
          change ctx.referenceOf id = none at hread
          change value.isNull = true at hnull
          rw [Expr.compile, outcome_registeredOr, hread, compileLiteral]
          simp only [hnull, if_true]
          rfl
      | _ => cases hnull

theorem Expr.outcome_bind_still {α : Type} (h : e.Still ctx.referenceOf)
    (k : Sql.Scalar → CompileM α) :
    outcome (e.compile sub >>= k) ctx s = outcome (k (.reading (ctx.referenceOf e.id))) ctx s := by
  rw [outcome_bind, Expr.outcome_still h]

/-- A comparison comes to the same as one that writes both operands, since an operand that is left
out is null. -/
theorem Expr.compile_compare {id : NodeId} {op : CompareOp} {left right : Expr} :
    (Expr.compare id op left right).compile sub = registeredOr id (do
      let l ← left.compile sub
      let r ← right.compile sub
      pure (op.written (op.tested? left right) l r)) := by
  rw [Expr.compile]
  refine congrArg (registeredOr id) (CompileM.ext fun ctx s => ?_)
  cases hop : op.nullTest? with
  | none => simp only [CompareOp.tested?, hop, if_true, CompareOp.written]
  | some negated =>
      cases hright : right.isNullLiteral with
      | true =>
          have htested : op.tested? left right = some .left := by
            simp [CompareOp.tested?, hop, hright]
          simp only [htested, CompareOp.written, hop, Option.getD_some]
          refine outcome_bind_congr_right fun l ctx' s' _ => ?_
          rw [Expr.outcome_bind_still (.inr hright)]
      | false =>
          cases hleft : left.isNullLiteral with
          | true =>
              have htested : op.tested? left right = some .right := by
                simp [CompareOp.tested?, hop, hright, hleft]
              simp only [htested, CompareOp.written, hop, Option.getD_some]
              rw [Expr.outcome_bind_still (.inr hleft)]
          | false =>
              have htested : op.tested? left right = none := by
                simp [CompareOp.tested?, hop, hright, hleft]
              simp only [htested, CompareOp.written]

end

/-! ## When an exchange shows -/

/-- The node is a comparison that is written in another way after the exchange: as a test and no
longer as one, or as a test of the other operand, which is read from elsewhere. -/
def Expr.Turns (ρ : Exchange read) : Expr → Prop
  | .compare _ op left right =>
    op.tested? left right ≠ op.tested? (left.exchange ρ) (right.exchange ρ) ∧
      (op.tested? left right = none ∨ op.tested? (left.exchange ρ) (right.exchange ρ) = none ∨
        read left.id ≠ read right.id)
  | _ => False

/-- The node is written out: it stands in the expression, and neither it nor a node around it is
registered. -/
inductive Expr.WritesOut (read : NodeId → Option Reference) : Expr → Expr → Prop
  | here {e} : read e.id = none → Expr.WritesOut read e e
  | inside {e child node} : read e.id = none → child ∈ e.children → Expr.WritesOut read child node →
      Expr.WritesOut read e node

/-- Such a comparison is written out in the expression. -/
def Expr.Reveals (ρ : Exchange read) (e : Expr) : Prop :=
  ∃ node, e.WritesOut read node ∧ node.Turns ρ

/-- Sources, fields and the parameters that are written out have names that can be read back, and no
parameter has the name of a bound value. -/
structure Expr.Worded (read : NodeId → Option Reference) (e : Expr) : Prop where
  fields : FieldsNamed read
  parameters : ∀ id name, e.WritesOut read (.parameter id name) →
    Sql.IsName name ∧ Sql.isNumbered name.toList = false

section

variable {ρ : Exchange read} {e : Expr}

theorem Expr.WritesOut.unregistered {node : Expr} (h : e.WritesOut read node) :
    read e.id = none := by
  cases h with
  | here hread => exact hread
  | inside hread _ _ => exact hread

theorem Expr.WritesOut.contains {node : Expr} (h : e.WritesOut read node) : e.Contains node := by
  induction h with
  | here _ => exact .refl
  | inside _ hchild _ ih => exact .child hchild ih

theorem Expr.Reveals.unregistered (h : e.Reveals ρ) : read e.id = none := by
  obtain ⟨node, hout, -⟩ := h
  exact hout.unregistered

theorem Expr.reveals_iff (hread : read e.id = none) :
    e.Reveals ρ ↔ e.Turns ρ ∨ ∃ child ∈ e.children, child.Reveals ρ := by
  constructor
  · rintro ⟨node, hout, hturns⟩
    cases hout with
    | here _ => exact .inl hturns
    | inside _ hchild hout => exact .inr ⟨_, hchild, node, hout, hturns⟩
  · rintro (hturns | ⟨child, hchild, node, hout, hturns⟩)
    · exact ⟨e, .here hread, hturns⟩
    · exact ⟨node, .inside hread hchild hout, hturns⟩

theorem Expr.Worded.child {child : Expr} (h : e.Worded read) (hread : read e.id = none)
    (hchild : child ∈ e.children) : child.Worded read where
  fields := h.fields
  parameters id name hout := h.parameters id name (.inside hread hchild hout)

/-- Nothing shows in a node that is written at once. -/
theorem Expr.Still.not_reveals (h : e.Still read) : ¬ e.Reveals ρ := by
  intro hreveals
  have hnull : e.isNullLiteral = true := h.resolve_left (not_not_intro hreveals.unregistered)
  rw [Expr.reveals_iff hreveals.unregistered] at hreveals
  cases e with
  | null => simp [Expr.Turns, Expr.children, Expr.operands?] at hreveals
  | literal => simp [Expr.Turns, Expr.children, Expr.operands?] at hreveals
  | _ => cases hnull

theorem Expr.forall_contains {P : Expr → Prop} (he : P e)
    (hchildren : ∀ child ∈ e.children, ∀ o, child.Contains o → P o) : ∀ o, e.Contains o → P o := by
  intro o ho
  cases ho with
  | refl => exact he
  | child hchild ho => exact hchildren _ hchild o ho

/-- If the new node is null where the old one was, and only there, nothing shows. -/
theorem Expr.not_reveals_of_same (h : ∀ o, e.Contains o → o.id = ρ.old.id →
    o.isNullLiteral = ρ.new.isNullLiteral) : ¬ e.Reveals ρ := by
  rintro ⟨node, hout, hturns⟩
  have hkeeps : ∀ o ∈ node.children, (o.exchange ρ).isNullLiteral = o.isNullLiteral := by
    intro o ho
    by_cases hid : o.id = ρ.old.id
    · rw [Expr.exchange_of_eq hid, h o (hout.contains.trans (.child ho .refl)) hid]
    · exact (Expr.exchange_of_ne hid).2
  cases node with
  | compare id op left right =>
      have hleft := hkeeps left (by simp [Expr.children, Expr.operands?])
      have hright := hkeeps right (by simp [Expr.children, Expr.operands?])
      exact hturns.1 (by simp only [CompareOp.tested?, hleft, hright])
  | _ => exact hturns

/-- Where null is now, there was null or the old node. -/
theorem Expr.still_of_exchange (h : (e.exchange ρ).isNullLiteral = true) : e.Still read := by
  by_cases hid : e.id = ρ.old.id
  · exact .inl (by simp [hid, ρ.read_old])
  · exact .inr ((Expr.exchange_of_ne hid).2 ▸ h)

/-- Where null was, there is null or the new node. -/
theorem Expr.still_exchange (h : e.isNullLiteral = true) : (e.exchange ρ).Still read := by
  by_cases hid : e.id = ρ.old.id
  · exact .inl (by simp [Expr.exchange_of_eq hid, ρ.read_new])
  · exact .inr ((Expr.exchange_of_ne hid).2.trans h)

end

/-! ## Assembled nodes -/

def Expr.IsComparison (e : Expr) : Prop := ∃ id op left right, e = .compare id op left right

theorem Expr.length_exchangeAll {ρ : Exchange read} (es : List Expr) :
    (Expr.exchangeAll ρ es).length = es.length := by
  induction es with
  | nil => rfl
  | cons _ _ ih => exact congrArg (· + 1) ih

namespace Expr.Assembles

variable {e : Expr} {es : List Expr} {ts : List Sql.Scalar} {t : Sql.Scalar}

theorem inj {ts' : List Sql.Scalar} (h : e.Assembles es ts t) (h' : e.Assembles es ts' t) :
    ts = ts' := by
  cases h <;> cases h' <;> rfl

theorem eq_null (h : e.Assembles es ts t) (hnull : e.isNullLiteral = true) : t = .null := by
  cases h <;> first | rfl | cases hnull

theorem operands?_eq (h : e.Assembles es ts t) (hcompare : ¬ e.IsComparison) :
    e.operands? = some es := by
  cases h with
  | compare | rightNull | leftNull => exact absurd ⟨_, _, _, _, rfl⟩ hcompare
  | _ => rfl

theorem inside {ρ : Exchange read} (h : e.Assembles es ts t) (hcompare : ¬ e.IsComparison) :
    (e.inside ρ).Assembles (Expr.exchangeAll ρ es) ts t := by
  cases h with
  | compare | rightNull | leftNull => exact absurd ⟨_, _, _, _, rfl⟩ hcompare
  | nullLiteral hnull => exact .nullLiteral hnull
  | _ => constructor

theorem readable (h : e.Assembles es ts t) (hid : read e.id = none) (hw : e.Worded read)
    (hts : ∀ t ∈ ts, t.Readable) : t.Readable := by
  cases h with
  | @parameter id name =>
      obtain ⟨hname, hnumbered⟩ := hw.parameters id name (.here hid)
      exact .named hname hnumbered
  | inList =>
      rw [List.forall_mem_cons] at hts
      exact .inList hts.1 (List.cons_ne_nil _ _) hts.2
  | _ => constructor <;> simp_all

end Expr.Assembles

/-! ## Both written forms -/

/-- What is said of the written forms of an expression before and after the exchange. -/
structure Expr.WrittenBoth (ρ : Exchange read) (e : Expr) (t t' : Sql.Scalar) : Prop where
  same_iff : t = t' ↔ ¬ e.Reveals ρ
  still : e.Still read → t = .reading (read e.id)
  still_after : (e.exchange ρ).Still read → t' = .reading (read e.id)
  readable : e.Worded read → t.Readable ∧ t'.Readable

structure Expr.WrittenBothAll (ρ : Exchange read) (es : List Expr) (ts ts' : List Sql.Scalar) :
    Prop where
  length_eq : ts.length = es.length ∧ ts'.length = es.length
  same_iff : ts = ts' ↔ ∀ e ∈ es, ¬ e.Reveals ρ
  readable : (∀ e ∈ es, e.Worded read) → (∀ t ∈ ts, t.Readable) ∧ ∀ t ∈ ts', t.Readable

namespace Expr.WrittenBoth

variable {ρ : Exchange read} {e : Expr} {t t' : Sql.Scalar}

theorem of_registered {r : Reference} (h : read e.id = some r) :
    e.WrittenBoth ρ (.reference r.qualifier r.field) (.reference r.qualifier r.field) where
  same_iff := by
    have hstill : e.Still read := .inl (by simp [h])
    simp [hstill.not_reveals]
  still _ := by rw [h, Sql.Scalar.reading]
  still_after _ := by rw [h, Sql.Scalar.reading]
  readable hw := by
    obtain ⟨hqualifier, hfield⟩ := hw.fields _ _ h
    exact ⟨.reference hqualifier hfield, .reference hqualifier hfield⟩

/-- A node that is written out: all is said once it is said of the node and its operands. -/
theorem of_unregistered {operands : List Expr} (h : read e.id = none)
    (ho : e.operands? = some operands) (hnull : e.isNullLiteral = true → t = .null ∧ t' = .null)
    (hsame : t = t' ↔ ¬ e.Turns ρ ∧ ∀ o ∈ operands, ¬ o.Reveals ρ)
    (hreadable : e.Worded read → (∀ o ∈ operands, o.Worded read) → t.Readable ∧ t'.Readable) :
    e.WrittenBoth ρ t t' where
  same_iff := by
    rw [hsame, Expr.reveals_iff h, Expr.children_eq ho, not_or]
    simp only [not_exists, not_and]
  still hstill := by
    rw [h, Sql.Scalar.reading]
    exact (hnull (hstill.resolve_left (not_not_intro h))).1
  still_after hstill := by
    have hne : e.id ≠ ρ.old.id := by
      intro hid
      simp [hid, ρ.read_old] at h
    obtain ⟨hid, hkeeps⟩ := Expr.exchange_of_ne hne
    rw [h, Sql.Scalar.reading]
    rw [Expr.Still, hid, hkeeps] at hstill
    exact (hnull (hstill.resolve_left (not_not_intro h))).2
  readable hw := hreadable hw fun _ hmem => hw.child h (Expr.children_eq ho ▸ hmem)

/-- Of any node but a comparison all is said by its operands. -/
theorem of_assembled {es : List Expr} {ts ts' : List Sql.Scalar} (hid : read e.id = none)
    (hcompare : ¬ e.IsComparison) (h : e.Assembles es ts t) (h' : e.Assembles es ts' t')
    (hts : Expr.WrittenBothAll ρ es ts ts') : e.WrittenBoth ρ t t' := by
  refine .of_unregistered hid (h.operands?_eq hcompare) (fun hnull => ?_) ?_ fun hw hwes => ?_
  · exact ⟨h.eq_null hnull, h'.eq_null hnull⟩
  · have hturns : ¬ e.Turns ρ := by
      intro hturns
      cases e with
      | compare => exact hcompare ⟨_, _, _, _, rfl⟩
      | _ => exact hturns
    rw [← hts.same_iff, and_iff_right hturns]
    constructor
    · rintro rfl
      exact h.inj h'
    · rintro rfl
      exact h.unique h'
  · obtain ⟨hread, hread'⟩ := hts.readable hwes
    exact ⟨h.readable hid hw hread, h'.readable hid hw hread'⟩

/-- A comparison is written the same unless it turns, or an operand is not. -/
theorem compare {id : NodeId} {op : CompareOp} {left right : Expr} {l l' r r' : Sql.Scalar}
    (hid : read id = none) (hl : left.WrittenBoth ρ l l') (hr : right.WrittenBoth ρ r r') :
    (Expr.compare id op left right).WrittenBoth ρ (op.written (op.tested? left right) l r)
      (op.written (op.tested? (left.exchange ρ) (right.exchange ρ)) l' r') := by
  refine .of_unregistered hid rfl (by rintro ⟨⟩) ?_ fun _ hw => ?_
  · rw [Expr.Turns, List.forall_mem_cons, List.forall_mem_singleton]
    rcases hbefore : op.tested? left right with _ | _ | _ <;>
      rcases hafter : op.tested? (left.exchange ρ) (right.exchange ρ) with _ | _ | _
    · simp [CompareOp.written, hl.same_iff, hr.same_iff]
    · simp [CompareOp.written]
    · simp [CompareOp.written]
    · simp [CompareOp.written]
    · have hright : right.Still read := .inr (CompareOp.isNullLiteral_of_tested?_left hbefore)
      simp [CompareOp.written, hl.same_iff, hright.not_reveals]
    · -- The right operand was null and the left one is: both are written at once.
      have hright := CompareOp.isNullLiteral_of_tested?_left hbefore
      have hleft : left.Still read :=
        Expr.still_of_exchange (CompareOp.isNullLiteral_of_tested?_right hafter)
      have hright' : right.Still read := .inr hright
      simp [CompareOp.written, hl.still hleft, hr.still_after (Expr.still_exchange hright),
        Sql.Scalar.reading_inj, hleft.not_reveals, hright'.not_reveals]
    · simp [CompareOp.written]
    · have hleft := CompareOp.isNullLiteral_of_tested?_right hbefore
      have hright : right.Still read :=
        Expr.still_of_exchange (CompareOp.isNullLiteral_of_tested?_left hafter)
      have hleft' : left.Still read := .inr hleft
      simp [CompareOp.written, hr.still hright, hl.still_after (Expr.still_exchange hleft),
        Sql.Scalar.reading_inj, hright.not_reveals, hleft'.not_reveals, eq_comm]
    · have hleft : left.Still read := .inr (CompareOp.isNullLiteral_of_tested?_right hbefore)
      simp [CompareOp.written, hr.same_iff, hleft.not_reveals]
  · have hleft := hl.readable (hw left (by simp))
    have hright := hr.readable (hw right (by simp))
    exact ⟨CompareOp.readable_written hleft.1 hright.1, CompareOp.readable_written hleft.2 hright.2⟩

end Expr.WrittenBoth

namespace Expr.WrittenBothAll

variable {ρ : Exchange read}

theorem nil : Expr.WrittenBothAll ρ [] [] [] := ⟨⟨rfl, rfl⟩, by simp, by simp⟩

theorem cons {e : Expr} {es : List Expr} {t t' : Sql.Scalar} {ts ts' : List Sql.Scalar}
    (h : e.WrittenBoth ρ t t') (hs : Expr.WrittenBothAll ρ es ts ts') :
    Expr.WrittenBothAll ρ (e :: es) (t :: ts) (t' :: ts') where
  length_eq := ⟨congrArg (· + 1) hs.length_eq.1, congrArg (· + 1) hs.length_eq.2⟩
  same_iff := by rw [List.cons.injEq, h.same_iff, hs.same_iff, List.forall_mem_cons]
  readable hw := by
    rw [List.forall_mem_cons] at hw
    obtain ⟨ht, ht'⟩ := h.readable hw.1
    obtain ⟨hts, hts'⟩ := hs.readable hw.2
    exact ⟨List.forall_mem_cons.2 ⟨ht, hts⟩, List.forall_mem_cons.2 ⟨ht', hts'⟩⟩

end Expr.WrittenBothAll

/-! ## Two courses side by side -/

/-- Both fail with the same error, or both come to the same context, where nodes are read as given,
with results that are related.  The session is the same as well. -/
inductive OutcomesMatch (read : NodeId → Option Reference) {α : Type} (P : α → α → Prop) :
    Except CompileError (α × Context) × Session → Except CompileError (α × Context) × Session → Prop
  | refused {err s} : OutcomesMatch read P (.error err, s) (.error err, s)
  | compiled {a a' ctx s} : ctx.referenceOf = read → P a a' →
      OutcomesMatch read P (.ok (a, ctx), s) (.ok (a', ctx), s)

theorem OutcomesMatch.mono {α : Type} {P Q : α → α → Prop}
    {x x' : Except CompileError (α × Context) × Session} (h : OutcomesMatch read P x x')
    (hpq : ∀ a a', P a a' → Q a a') : OutcomesMatch read Q x x' := by
  cases h with
  | refused => exact .refused
  | compiled hread hp => exact .compiled hread (hpq _ _ hp)

/-- The steps do so wherever nodes are read as given. -/
def CompileM.Matches {α : Type} (read : NodeId → Option Reference) (P : α → α → Prop)
    (m m' : CompileM α) : Prop :=
  ∀ ⦃ctx : Context⦄ ⦃s : Session⦄, ctx.referenceOf = read →
    OutcomesMatch read P (outcome m ctx s) (outcome m' ctx s)

namespace CompileM.Matches

variable {α β : Type} {P : α → α → Prop} {Q : β → β → Prop}

theorem pure {a a' : α} (h : P a a') : Matches read P (pure a) (pure a') := by
  intro ctx s hread
  exact .compiled hread h

theorem throw (err : CompileError) : Matches read P (throw err) (throw err) := by
  intro ctx s _
  exact .refused

theorem bind {m m' : CompileM α} {f f' : α → CompileM β} (h : Matches read P m m')
    (hf : ∀ a a', P a a' → Matches read Q (f a) (f' a')) :
    Matches read Q (m >>= f) (m' >>= f') := by
  intro ctx s hread
  rw [outcome_bind, outcome_bind]
  generalize hm : outcome m ctx s = x
  generalize hm' : outcome m' ctx s = x'
  have hx : OutcomesMatch read P x x' := hm ▸ hm' ▸ h hread
  cases hx with
  | refused => exact .refused
  | compiled hread' hp => exact hf _ _ hp hread'

/-- A node and what stands in its place: registered, both are written as one field, and otherwise the
node is still the same. -/
theorem node {sub : SubqueryCompiler} {ρ : Exchange read} {e e' : Expr}
    {own own' : CompileM Sql.Scalar} (hid : e'.id = e.id) (he : e.compile sub = registeredOr e.id own)
    (he' : e'.compile sub = registeredOr e.id own')
    (hown : read e.id = none → Matches read (e.WrittenBoth ρ) own own') :
    Matches read (e.WrittenBoth ρ) (e.compile sub) ((e'.swap ρ).compile sub) := by
  intro ctx s hread
  cases hr : read e.id with
  | some r =>
      have hswap : read (e'.swap ρ).id = some r := by
        by_cases hold : e'.id = ρ.old.id
        · rw [Expr.swap_of_eq hold, ρ.read_new, ← ρ.read_old, ← hold, hid, hr]
        · rw [Expr.swap_of_ne hold, hid, hr]
      rw [Expr.outcome_still (.inl (by simp [hread, hr])),
        Expr.outcome_still (.inl (by simp [hread, hswap])), hread, hr, hswap]
      exact .compiled hread (.of_registered hr)
  | none =>
      have hold : e'.id ≠ ρ.old.id := by
        intro hold
        rw [← hid, hold, ρ.read_old] at hr
        cases hr
      rw [Expr.swap_of_ne hold, he, he', outcome_registeredOr, outcome_registeredOr, hread, hr]
      exact hown hr hread

end CompileM.Matches

open CompileM (Matches)

section

variable {sub : SubqueryCompiler} {ρ : Exchange read}

theorem compileLiteral_matches {id : NodeId} {value : Value} (hid : read id = none) :
    Matches read ((Expr.literal id value).WrittenBoth ρ) (compileLiteral value)
      (compileLiteral value) := by
  unfold compileLiteral
  split
  · refine .pure (.of_unregistered hid rfl (fun _ => ⟨rfl, rfl⟩) ?_ fun _ _ => ⟨.null, .null⟩)
    simp [Expr.Turns]
  · next hvalue =>
      intro ctx s hread
      refine .compiled hread (.of_unregistered hid rfl (fun hnull => absurd hnull hvalue) ?_
        fun _ _ => ⟨.bound, .bound⟩)
      simp [Expr.Turns]

theorem CompileM.Matches.compileAll : ∀ {es : List Expr},
    (∀ e ∈ es, Matches read (e.WrittenBoth ρ) (e.compile sub) ((e.exchange ρ).compile sub)) →
      Matches read (Expr.WrittenBothAll ρ es) (Expr.compileAll sub es)
        (Expr.compileAll sub (Expr.exchangeAll ρ es))
  | [], _ => .pure .nil
  | _ :: _, h => by
      rw [List.forall_mem_cons] at h
      refine h.1.bind fun t t' ht => ?_
      exact (CompileM.Matches.compileAll h.2).bind fun ts ts' hts => .pure (.cons ht hts)

/-- Any node but a comparison writes the same operands after the exchange, each with the new node, and
makes the same of them. -/
theorem CompileM.Matches.assembled {e : Expr} {es : List Expr}
    {make : List Sql.Scalar → Sql.Scalar} (hmake : e.AssembledBy es make)
    (hown : e.compile sub = registeredOr e.id do
      let ts ← Expr.compileAll sub es
      return make ts)
    (hcompare : ¬ e.IsComparison)
    (hes : ∀ o ∈ es, Matches read (o.WrittenBoth ρ) (o.compile sub) ((o.exchange ρ).compile sub)) :
    Matches read (e.WrittenBoth ρ) (e.compile sub) (((e.inside ρ).swap ρ).compile sub) := by
  obtain ⟨_, _, ha⟩ := hmake.exists
  obtain ⟨make', hmake', hown'⟩ := (ha.inside hcompare).compile_eq
  rw [Expr.inside_id] at hown'
  refine .node Expr.inside_id hown (hown' sub) fun hid => ?_
  refine (CompileM.Matches.compileAll hes).bind fun ts ts' hts => .pure ?_
  obtain ⟨hlength, hlength'⟩ := hts.length_eq
  have hsame : make' ts' = make ts' :=
    (hmake' ts' (by rw [hlength', Expr.length_exchangeAll])).unique
      ((hmake ts' hlength').inside hcompare)
  rw [hsame]
  exact .of_assembled hid hcompare (hmake ts hlength) (hmake ts' hlength') hts

/-- Compiling an expression and compiling it with the other node take the same course. -/
theorem Expr.compile_matches {e : Expr} (he : e.nesting = 0) :
    Matches read (e.WrittenBoth ρ) (e.compile sub) ((e.exchange ρ).compile sub) := by
  induction e using Expr.children_induction with
  | node e ih =>
      rw [Expr.exchange_eq]
      cases e.form with
      | refused hrefused _ => cases hrefused <;> exact .node rfl rfl rfl fun _ => .throw _
      | bound _ => exact .node rfl rfl rfl compileLiteral_matches
      | membership => exact absurd he (Nat.succ_ne_zero _)
      | assembled es make hmake hown =>
          by_cases hcompare : e.IsComparison
          · obtain ⟨id, op, left, right, rfl⟩ := hcompare
            obtain ⟨hleft, hright⟩ := Nat.max_eq_zero_iff.1 he
            refine .node rfl Expr.compile_compare Expr.compile_compare fun hid => ?_
            refine (ih left List.mem_cons_self hleft).bind fun l l' hl => ?_
            refine (ih right (List.mem_cons_of_mem _ List.mem_cons_self) hright).bind
              fun r r' hr => .pure (.compare hid hl hr)
          · obtain ⟨_, _, ha⟩ := hmake.exists
            have hes := Expr.nestingAll_le_iff.1 (he ▸ ha.nestingAll_le)
            exact .assembled hmake (hown sub) hcompare fun o ho =>
              ih o (ha.subset ho) (Nat.le_zero.1 (hes o ho))

end

/-- Every node that is read from a field is written as that field, whatever its kind.  Of two such
nodes either may stand for the other: an expression without subqueries takes the same course with the
new one, to the same error, or to the same values bound, and it is written the same if and only if no
comparison turns.  So it is if both nodes are null, or neither is. -/
theorem compile_exchange {sub : SubqueryCompiler} {ctx : Context} {s : Session} {e : Expr}
    (ρ : Exchange ctx.referenceOf) (he : e.nesting = 0) :
    (∀ node : Expr, ctx.referenceOf node.id = some ρ.field → outcome (node.compile sub) ctx s =
        (.ok (.reference ρ.field.qualifier ρ.field.field, ctx), s)) ∧
      OutcomesMatch ctx.referenceOf
        (fun t t' => (t = t' ↔ ¬ e.Reveals ρ) ∧ (e.Worded ctx.referenceOf → ∀ d level,
          t.render d level = t'.render d level ↔ ¬ e.Reveals ρ))
        (outcome (e.compile sub) ctx s) (outcome ((e.exchange ρ).compile sub) ctx s) ∧
      ((∀ o, e.Contains o → o.id = ρ.old.id → o.isNullLiteral = ρ.new.isNullLiteral) →
        ¬ e.Reveals ρ) := by
  refine ⟨fun node hnode => ?_, ?_, Expr.not_reveals_of_same⟩
  · rw [Expr.outcome_still (.inl (by simp [hnode])), hnode, Sql.Scalar.reading]
  · refine (Expr.compile_matches he rfl).mono fun t t' h => ⟨h.same_iff, fun hw d level => ?_⟩
    -- The trees can be read back from their texts, so the texts differ if the trees do.
    obtain ⟨ht, ht'⟩ := h.readable hw
    rw [← h.same_iff]
    constructor
    · intro htext
      exact ht.eq_of_render_eq ht' htext
    · intro htree
      rw [htree]

/-- A column and a sum that are read from one field. -/
private def totals : Context :=
  { dialect := .generic, aliases := [(1, ⟨"a0", "Total"⟩), (2, ⟨"a0", "Total"⟩)] }

private def sumForColumn : Exchange totals.referenceOf where
  old := .column 1 "orders" "Total"
  new := .aggregate 2 .sum false (.column 3 "lines" "Price")
  field := ⟨"a0", "Total"⟩
  read_old := rfl
  read_new := rfl

/-- The column is compared with null, and it is an operand elsewhere. -/
private def missingOrLarge : Expr :=
  .binary 10 .or (.compare 11 .eq (.column 1 "orders" "Total") (.null 12))
    (.compare 13 .gt (.binary 14 .add (.column 1 "orders" "Total") (.literal 15 (.int 1)))
      (.literal 16 (.int 5)))

theorem compile_exchange_missingOrLarge :
    ((outcome (missingOrLarge.compile (compileWithin 0)) totals {}).1.map
      (·.1.render .generic 0)).toOption = some "(a0.Total IS NULL) OR ((a0.Total + @p0) > @p1)" ∧
    missingOrLarge.nesting = 0 ∧ ¬ missingOrLarge.Reveals sumForColumn ∧
    OutcomesMatch totals.referenceOf
      (fun t t' => t = t' ∧ ∀ d level, t.render d level = t'.render d level)
      (outcome (missingOrLarge.compile (compileWithin 0)) totals {})
      (outcome ((missingOrLarge.exchange sumForColumn).compile (compileWithin 0)) totals {}) := by
  have he : missingOrLarge.nesting = 0 := rfl
  obtain ⟨-, hmatch, hsame⟩ :=
    @compile_exchange (compileWithin 0) totals {} missingOrLarge sumForColumn he
  have hhidden : ¬ missingOrLarge.Reveals sumForColumn := by
    have hleaf : ∀ {e : Expr}, (e.id = 1 → e.isNullLiteral = false) → e.children = [] →
        ∀ o, e.Contains o → o.id = 1 → o.isNullLiteral = false := fun h hchildren =>
      Expr.forall_contains h (by simp [hchildren])
    refine hsame (Expr.forall_contains (by decide) (List.forall_mem_cons.2 ⟨?_, ?_⟩))
    · refine Expr.forall_contains (by decide) (List.forall_mem_cons.2 ⟨hleaf (by decide) rfl, ?_⟩)
      exact List.forall_mem_singleton.2 (hleaf (by decide) rfl)
    · refine List.forall_mem_singleton.2 (Expr.forall_contains (by decide) ?_)
      refine List.forall_mem_cons.2 ⟨Expr.forall_contains (by decide) ?_, ?_⟩
      · exact List.forall_mem_cons.2
          ⟨hleaf (by decide) rfl, List.forall_mem_singleton.2 (hleaf (by decide) rfl)⟩
      · exact List.forall_mem_singleton.2 (hleaf (by decide) rfl)
  refine ⟨by decide +kernel, he, hhidden, hmatch.mono fun t t' h => ?_⟩
  have htree : t = t' := h.1.2 hhidden
  exact ⟨htree, fun d level => by rw [htree]⟩

/-- The expressions `z`, `c` and `n`, all registered, the last two as one field. -/
private def fieldsOfNull : Context :=
  { dialect := .generic,
    aliases := [(3, ⟨"a0", "B"⟩), (2, ⟨"a0", "A"⟩), (1, ⟨"a0", "A"⟩)] }

private def nullForColumn : Exchange fieldsOfNull.referenceOf where
  old := .column 2 "t" "A"
  new := .null 1
  field := ⟨"a0", "A"⟩
  read_old := rfl
  read_new := rfl

/-- `z = c` -/
private def fieldsEqual : Expr := .compare 4 .eq (.column 3 "t" "B") (.column 2 "t" "A")

/-- The kind of a registered node does show: with null for the column there is a test in the place of
the comparison. -/
theorem compile_exchange_fieldsEqual_ne :
    ((outcome (fieldsEqual.compile (compileWithin 0)) fieldsOfNull {}).1.map
      (·.1.render .generic 0)).toOption = some "a0.B = a0.A" ∧
    ((outcome ((fieldsEqual.exchange nullForColumn).compile (compileWithin 0)) fieldsOfNull {}).1.map
      (·.1.render .generic 0)).toOption = some "a0.B IS NULL" := by
  decide +kernel

end QueryCompiler
