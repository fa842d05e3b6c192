import QueryCompiler.Clause.Eval

/-! # `QueryCompiler.Proofs.Building` — what computations build

Facts about a computation that hold whatever identities it is given, and the evaluation of lists of
terms, which is done part by part.
-/

namespace QueryCompiler

/-- What a computation builds has the property, whatever the supply. -/
def Build.Returns {α : Type} (P : α → Prop) (b : Build α) : Prop := ∀ s : Supply, P (b s).1

namespace Build.Returns

variable {α β : Type} {P : α → Prop} {Q : β → Prop}

theorem pure {a : α} (h : P a) : Build.Returns P (pure a) := fun _ => h

theorem bind {b : Build α} {f : α → Build β} (h : Build.Returns P b)
    (hf : ∀ a, P a → Build.Returns Q (f a)) : Build.Returns Q (b >>= f) :=
  fun s => hf _ (h s) _

theorem node {make : NodeId → α} (h : ∀ i, P (make i)) : Build.Returns P (Build.node make) :=
  fun _ => h _

theorem and {b : Build α} {P' : α → Prop} (h : Build.Returns P b) (h' : Build.Returns P' b) :
    Build.Returns (fun a => P a ∧ P' a) b :=
  fun s => ⟨h s, h' s⟩

end Build.Returns

/-! ## Lists of terms -/

theorem ExprTerm.evalAll_length (scope : Scope) : ∀ ts : List ExprTerm,
    Build.Returns (fun es => es.length = ts.length) (ExprTerm.evalAll ts scope)
  | [] => .pure rfl
  | t :: ts => by
      refine Build.Returns.bind (P := fun _ => True) (fun _ => trivial) fun e _ => ?_
      exact (evalAll_length scope ts).bind fun es hes => .pure (congrArg (· + 1) hes)

theorem ExprTerm.evalAll_append (scope : Scope) : ∀ first second : List ExprTerm,
    ExprTerm.evalAll (first ++ second) scope = (do
      let es ← ExprTerm.evalAll first scope
      let fs ← ExprTerm.evalAll second scope
      return es ++ fs)
  | [], _ => rfl
  | t :: ts, second => by
      rw [List.cons_append, ExprTerm.evalAll, ExprTerm.evalAll, evalAll_append scope ts second]
      rfl

theorem RowTerm.runStages_append (scope : Scope) : ∀ (first second : List RowTerm) (row : Row),
    RowTerm.runStages scope (first ++ second) row =
      RowTerm.runStages scope first row >>= RowTerm.runStages scope second
  | [], _, _ => rfl
  | stage :: stages, second, row => by
      have ih : RowTerm.runStages scope (stages ++ second) =
          fun row => RowTerm.runStages scope stages row >>= RowTerm.runStages scope second :=
        funext (runStages_append scope stages second)
      rw [List.cons_append, RowTerm.runStages, RowTerm.runStages, ih]
      rfl

end QueryCompiler
