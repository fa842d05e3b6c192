import Mathlib.Data.List.Basic
import QueryCompiler.Proofs.Steps

/-! # `QueryCompiler.Proofs.Forms` — the forms that expressions are compiled in

A node that is not registered is compiled in one of four forms, whatever its kind.

    refused       it fails, with the error of its kind
    bound         a literal, bound to a placeholder
    assembled     its operands are written one after another, and something is made of them
    membership    its needle is written, then the statement of its query

Most kinds fall under the third, and differ only in which operands they write and in what is made of
them, which is what `Expr.Assembles` says.  A statement about the compiler of all expressions is proved
by `Expr.form_induction`, and need not go through the kinds.
-/

namespace QueryCompiler

/-! ## Parts of expressions -/

/-- The operands of a node that holds no subquery. -/
def Expr.operands? : Expr → Option (List Expr)
  | .literal .. | .null _ | .column .. | .parameter .. | .countStar _ | .unknown .. => some []
  | .binary _ _ left right => some [left, right]
  | .unary _ _ operand => some [operand]
  | .compare _ _ left right => some [left, right]
  | .aggregate _ _ _ operand => some [operand]
  | .case _ condition positive negative => some [condition, positive, negative]
  | .like _ value pattern => some [value, pattern]
  | .inList _ needle values => some (needle :: values)
  | .inQuery .. => none

/-- The expressions that a node is made of. -/
def Expr.children : Expr → List Expr
  | .inQuery _ needle _ _ => [needle]
  | e => e.operands?.getD []

theorem Expr.children_eq {e : Expr} {operands : List Expr} (h : e.operands? = some operands) :
    e.children = operands := by
  cases e with
  | inQuery => cases h
  | _ => exact Option.some.inj h

theorem Expr.sizeOf_lt_of_mem_children {e o : Expr} (h : o ∈ e.children) :
    sizeOf o < sizeOf e := by
  cases e with
  | literal | null | column | parameter | countStar | unknown => cases h
  | unary | aggregate | inQuery =>
      cases List.mem_singleton.1 h
      simp +arith
  | binary | compare | like | case =>
      simp only [children, operands?, Option.getD_some, List.mem_cons, List.not_mem_nil,
        or_false] at h
      rcases h with rfl | rfl | rfl <;> simp +arith
  | inList id needle values =>
      rcases List.mem_cons.1 h with rfl | hvalue
      · simp +arith
      · have := List.sizeOf_lt_of_mem hvalue
        simp only [Expr.inList.sizeOf_spec]
        omega

/-- What holds of a node if it holds of the expressions it is made of, holds of all. -/
theorem Expr.children_induction {P : Expr → Prop} (node : ∀ e, (∀ o ∈ e.children, P o) → P e)
    (e : Expr) : P e :=
  node e fun o ho =>
    have := Expr.sizeOf_lt_of_mem_children ho
    children_induction node o
termination_by sizeOf e

/-! ## What is made of operands -/

/-- From the written forms of the operands that it writes, an expression is put together like this.
A comparison with null writes only the other operand. -/
inductive Expr.Assembles : Expr → List Expr → List Sql.Scalar → Sql.Scalar → Prop
  | null {id} : Assembles (.null id) [] [] .null
  | nullLiteral {id value} : value.isNull = true → Assembles (.literal id value) [] [] .null
  | parameter {id name} : Assembles (.parameter id name) [] [] (.named name)
  | countStar {id} : Assembles (.countStar id) [] [] .countStar
  | unary {id op e t} : Assembles (.unary id op e) [e] [t] (.unary op t)
  | aggregate {id func distinct e t} :
      Assembles (.aggregate id func distinct e) [e] [t] (.aggregate func distinct t)
  | binary {id op e e' t t'} : Assembles (.binary id op e e') [e, e'] [t, t'] (.binary op t t')
  | like {id e e' t t'} : Assembles (.like id e e') [e, e'] [t, t'] (.like t t')
  | compare {id op e e' t t'} :
      op.nullTest? = none ∨ e.isNullLiteral = false ∧ e'.isNullLiteral = false →
      Assembles (.compare id op e e') [e, e'] [t, t'] (.compare op t t')
  | rightNull {id op e e' t negated} : op.nullTest? = some negated → e'.isNullLiteral = true →
      Assembles (.compare id op e e') [e] [t] (.nullTest negated t)
  | leftNull {id op e e' t negated} : op.nullTest? = some negated → e.isNullLiteral = true →
      e'.isNullLiteral = false → Assembles (.compare id op e e') [e'] [t] (.nullTest negated t)
  | case {id c p n t t' t''} : Assembles (.case id c p n) [c, p, n] [t, t', t''] (.case t t' t'')
  | inList {id e v vs t u us} :
      Assembles (.inList id e (v :: vs)) (e :: v :: vs) (t :: u :: us) (.inList t (u :: us))

/-- The function makes the expression of the written forms of these operands, whatever they are. -/
def Expr.AssembledBy (e : Expr) (es : List Expr) (make : List Sql.Scalar → Sql.Scalar) : Prop :=
  ∀ ts : List Sql.Scalar, ts.length = es.length → e.Assembles es ts (make ts)

namespace Expr

variable {e : Expr} {es : List Expr} {ts : List Sql.Scalar} {t : Sql.Scalar}
  {make : List Sql.Scalar → Sql.Scalar}

theorem Assembles.subset (h : e.Assembles es ts t) : es ⊆ e.children := by
  cases h <;> simp [children, operands?]

theorem Assembles.operands_eq {es' : List Expr} {ts' : List Sql.Scalar} {t' : Sql.Scalar}
    (h : e.Assembles es ts t) (h' : e.Assembles es' ts' t') : es = es' := by
  cases h <;> cases h' <;> simp_all

theorem Assembles.unique {t' : Sql.Scalar} (h : e.Assembles es ts t) (h' : e.Assembles es ts t') :
    t = t' := by
  cases h <;> cases h' <;> simp_all

theorem AssembledBy.exists (h : e.AssembledBy es make) : ∃ ts t, e.Assembles es ts t :=
  ⟨es.map fun _ => .null, _, h _ (List.length_map _)⟩

end Expr

/-! ## Forms -/

/-- A node that can be written only if it is registered, and the error otherwise. -/
inductive Expr.Refused : Expr → CompileError → Prop
  | column {id table name} : Refused (.column id table name) (.missingAlias "Column" id)
  | unknown {id name} : Refused (.unknown id name) (.unknownColumn name)
  | emptyList {id needle} :
      Refused (.inList id needle []) (.unsupportedExpression "InList" "IN list is empty")

/-- How a node that is not registered is compiled, whatever the compiler of subqueries. -/
inductive Expr.Form : Expr → Prop
  | refused {e err} : e.Refused err → (∀ sub, e.compile sub = registeredOr e.id (throw err)) →
      Form e
  | bound {id value} : value.isNull = false → Form (.literal id value)
  | assembled {e} (es make) : e.AssembledBy es make →
      (∀ sub, e.compile sub = registeredOr e.id do
        let ts ← Expr.compileAll sub es
        return make ts) → Form e
  | membership {id needle query scope} : Form (.inQuery id needle query scope)

theorem Expr.form_of_none {e : Expr} {t : Sql.Scalar} (h : e.Assembles [] [] t)
    (he : ∀ sub, e.compile sub = registeredOr e.id (return t)) : e.Form := by
  refine .assembled [] (fun _ => t) (fun ts hlength => ?_) fun sub => (he sub).trans ?_
  · cases List.eq_nil_of_length_eq_zero hlength
    exact h
  · simp only [compileAll, pure_bind]

theorem Expr.form_of_one {e o : Expr} {make : Sql.Scalar → Sql.Scalar}
    (h : ∀ t, e.Assembles [o] [t] (make t))
    (he : ∀ sub, e.compile sub = registeredOr e.id do
      let t ← o.compile sub
      return make t) : e.Form := by
  refine .assembled [o] (fun ts => make (ts.headD .null)) (fun ts hlength => ?_)
    fun sub => (he sub).trans ?_
  · obtain ⟨t, rfl⟩ := List.length_eq_one_iff.1 hlength
    exact h t
  · simp only [compileAll, bind_assoc, pure_bind, List.headD_cons]

theorem Expr.form_of_two {e o o' : Expr} {make : Sql.Scalar → Sql.Scalar → Sql.Scalar}
    (h : ∀ t t', e.Assembles [o, o'] [t, t'] (make t t'))
    (he : ∀ sub, e.compile sub = registeredOr e.id do
      let t ← o.compile sub
      let t' ← o'.compile sub
      return make t t') : e.Form := by
  refine .assembled [o, o'] (fun ts => make (ts.getD 0 .null) (ts.getD 1 .null))
    (fun ts hlength => ?_) fun sub => (he sub).trans ?_
  · obtain ⟨t, t', rfl⟩ := List.length_eq_two.1 hlength
    exact h t t'
  · simp only [compileAll, bind_assoc, pure_bind]
    rfl

/-- Every expression is compiled in one of the forms. -/
theorem Expr.form (e : Expr) : e.Form := by
  cases e with
  | literal id value =>
      cases hnull : value.isNull with
      | false => exact .bound hnull
      | true =>
          refine Expr.form_of_none (.nullLiteral hnull) fun _ => ?_
          rw [Expr.compile, compileLiteral, if_pos hnull]
          rfl
  | null => exact Expr.form_of_none .null fun _ => rfl
  | parameter => exact Expr.form_of_none .parameter fun _ => rfl
  | countStar => exact Expr.form_of_none .countStar fun _ => rfl
  | column => exact .refused .column fun _ => rfl
  | unknown => exact .refused .unknown fun _ => rfl
  | unary => exact Expr.form_of_one (fun _ => .unary) fun _ => rfl
  | aggregate => exact Expr.form_of_one (fun _ => .aggregate) fun _ => rfl
  | binary => exact Expr.form_of_two (fun _ _ => .binary) fun _ => rfl
  | like => exact Expr.form_of_two (fun _ _ => .like) fun _ => rfl
  | compare id op left right =>
      -- which operands are written depends on the operator and on which of them are null
      cases htest : op.nullTest? with
      | none =>
          refine Expr.form_of_two (fun _ _ => .compare (.inl htest)) fun _ => ?_
          rw [Expr.compile, htest]
          rfl
      | some negated =>
          cases hright : right.isNullLiteral with
          | true =>
              refine Expr.form_of_one (fun _ => .rightNull htest hright) fun _ => ?_
              rw [Expr.compile, htest, hright]
              rfl
          | false =>
              cases hleft : left.isNullLiteral with
              | true =>
                  refine Expr.form_of_one (fun _ => .leftNull htest hleft hright) fun _ => ?_
                  rw [Expr.compile, htest, hleft, hright]
                  rfl
              | false =>
                  refine Expr.form_of_two (fun _ _ => .compare (.inr ⟨hleft, hright⟩)) fun _ => ?_
                  rw [Expr.compile, htest, hleft, hright]
                  rfl
  | case id condition positive negative =>
      refine .assembled [condition, positive, negative]
        (fun ts => .case (ts.getD 0 .null) (ts.getD 1 .null) (ts.getD 2 .null))
        (fun ts hlength => ?_) fun _ => ?_
      · obtain ⟨t, t', t'', rfl⟩ := List.length_eq_three.1 hlength
        exact .case
      · simp only [compile, compileAll, bind_assoc, pure_bind]
        rfl
  | inList id needle values =>
      cases values with
      | nil => exact .refused .emptyList fun _ => rfl
      | cons value values =>
          refine .assembled (needle :: value :: values)
            (fun ts => .inList (ts.headD .null) ts.tail) (fun ts hlength => ?_) fun _ => ?_
          · rcases ts with _ | ⟨t, _ | ⟨u, us⟩⟩
            · cases hlength
            · cases hlength
            · exact .inList
          · simp only [compile, compileAll, bind_assoc, pure_bind]
            rfl
  | inQuery => exact .membership

/-- An expression that can be put together of its written operands is. -/
theorem Expr.Assembles.compile_eq {e : Expr} {es : List Expr} {ts : List Sql.Scalar}
    {t : Sql.Scalar} (h : e.Assembles es ts t) :
    ∃ make, e.AssembledBy es make ∧ ∀ sub, e.compile sub = registeredOr e.id do
      let ts ← Expr.compileAll sub es
      return make ts := by
  cases e.form with
  | refused hrefused _ => cases hrefused <;> cases h
  | bound hvalue =>
      cases h with
      | nullLiteral hnull => simp [hvalue] at hnull
  | assembled es' make hmake he =>
      obtain ⟨_, _, h'⟩ := hmake.exists
      obtain rfl := h.operands_eq h'
      exact ⟨make, hmake, he⟩
  | membership => cases h

/-- What holds of expressions of every form, provided that it holds of the operands that they write,
holds of all expressions. -/
theorem Expr.form_induction {P : Expr → Prop}
    (refused : ∀ {e err}, e.Refused err →
      (∀ sub, e.compile sub = registeredOr e.id (throw err)) → P e)
    (bound : ∀ {id value}, value.isNull = false → P (.literal id value))
    (assembled : ∀ {e es make}, e.AssembledBy es make →
      (∀ sub, e.compile sub = registeredOr e.id do
        let ts ← Expr.compileAll sub es
        return make ts) → (∀ o ∈ es, P o) → P e)
    (membership : ∀ {id needle query scope}, P needle → P (.inQuery id needle query scope))
    (e : Expr) : P e := by
  induction e using Expr.children_induction with
  | node e ih =>
      cases e.form with
      | refused h he => exact refused h he
      | bound hnull => exact bound hnull
      | assembled es make h he =>
          obtain ⟨_, _, ha⟩ := h.exists
          exact assembled h he fun o ho => ih o (ha.subset ho)
      | membership => exact membership (ih _ List.mem_cons_self)

end QueryCompiler
