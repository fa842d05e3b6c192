import Mathlib.Data.List.Forall2
import QueryCompiler.Proofs.Likeness.Exprs
import QueryCompiler.Proofs.Placeholders.Scan
import QueryCompiler.Proofs.Steps

/-! # `QueryCompiler.Proofs.Likeness.Steps` — steps that run in step

Two contexts are alike if they have given out the same aliases and equally many placeholders, read
matched nodes from the same places, and bind at each placeholder the two encodings of one pair of
matched values.  The dialects of the two runs may differ; they show in the marks and in the values
of the placeholders and nowhere else.  So may the levels, which show in the layout of the text.

Two steps run in step if from alike contexts both succeed with related results and alike contexts,
or both fail for the same reason, the identity named in it apart.
-/

namespace QueryCompiler

/-! ## Contexts -/

section

variable (M : Matching) (d d' : Dialect)

/-- One placeholder of two runs: the values bound are the encodings of matched values. -/
def ParamAlike (p p' : String × Value) : Prop :=
  ∃ i v w, M.values v w ∧ v.isNull = false ∧ p = (Sql.placeholder d i, d.encode v) ∧
    p' = (Sql.placeholder d' i, d'.encode w)

/-- One registration of two runs: matched nodes are read from the same place. -/
def AliasAlike (a a' : NodeId × Reference) : Prop := M.ids a.1 a'.1 ∧ a.2 = a'.2

/-- The contexts of two runs that are in step. -/
structure Context.Alike (ctx ctx' : Context) : Prop where
  dialect_eq : ctx.dialect = d
  dialect_eq' : ctx'.dialect = d'
  nextAlias_eq : ctx.nextAlias = ctx'.nextAlias
  aliases : List.Forall₂ (AliasAlike M) ctx.aliases ctx'.aliases
  params : List.Forall₂ (ParamAlike M d d') ctx.params ctx'.params

/-- The same reason for a failure, up to the identity of the node it names. -/
inductive CompileError.Alike : CompileError → CompileError → Prop
  | same {e} : CompileError.Alike e e
  | missingAlias {node i i'} : M.ids i i' →
      CompileError.Alike (.missingAlias node i) (.missingAlias node i')

end

variable {M : Matching} {d d' : Dialect}

namespace Context.Alike

variable {ctx ctx' : Context}

theorem lookup_eq {as as' : List (NodeId × Reference)} (h : List.Forall₂ (AliasAlike M) as as')
    {i i' : NodeId} (hi : M.ids i i') : as.lookup i = as'.lookup i' := by
  induction h with
  | nil => rfl
  | @cons a a' as as' ha _ ih =>
      obtain ⟨j, r⟩ := a
      obtain ⟨j', r'⟩ := a'
      obtain ⟨hj, rfl : r = r'⟩ := ha
      have hij : (i == j) = (i' == j') := by
        rw [Bool.eq_iff_iff, beq_iff_eq, beq_iff_eq]
        exact M.ids_unique hi hj
      simp only [List.lookup_cons, hij, ih]

theorem referenceOf_eq (h : Context.Alike M d d' ctx ctx') {i i' : NodeId} (hi : M.ids i i') :
    ctx.referenceOf i = ctx'.referenceOf i' :=
  lookup_eq h.aliases hi

theorem register (h : Context.Alike M d d' ctx ctx') {i i' : NodeId} (hi : M.ids i i')
    (r : Reference) : Context.Alike M d d' (ctx.register i r) (ctx'.register i' r) :=
  { h with aliases := .cons ⟨hi, rfl⟩ h.aliases }

/-- One field of a source in two runs. -/
def FieldAlike (M : Matching) (f f' : NodeId × String) : Prop := M.ids f.1 f'.1 ∧ f.2 = f'.2

theorem registerAll (h : Context.Alike M d d' ctx ctx') (qualifier : String)
    {fields fields' : List (NodeId × String)} (hf : List.Forall₂ (FieldAlike M) fields fields') :
    Context.Alike M d d' (ctx.registerAll qualifier fields)
      (ctx'.registerAll qualifier fields') := by
  induction hf generalizing ctx ctx' with
  | nil => exact h
  | @cons f f' _ _ hf _ ih =>
      obtain ⟨i, name⟩ := f
      obtain ⟨i', name'⟩ := f'
      obtain ⟨hi, rfl : name = name'⟩ := hf
      exact ih (h.register hi ⟨qualifier, name⟩)

theorem takeAlias (h : Context.Alike M d d' ctx ctx') :
    Context.Alike M d d' ctx.takeAlias ctx'.takeAlias :=
  { h with nextAlias_eq := congrArg (· + 1) h.nextAlias_eq }

theorem withIndent (h : Context.Alike M d d' ctx ctx') (n n' : Nat) :
    Context.Alike M d d' { ctx with indent := n } { ctx' with indent := n' } :=
  { h with }

theorem setValue {v w : Value} (hv : M.values v w) (hn : v.isNull = false) (i : Nat)
    {ps ps' : List (String × Value)} (h : List.Forall₂ (ParamAlike M d d') ps ps') :
    List.Forall₂ (ParamAlike M d d') (setValue (Sql.placeholder d i) (d.encode v) ps)
      (setValue (Sql.placeholder d' i) (d'.encode w) ps') := by
  have hp : ParamAlike M d d' (Sql.placeholder d i, d.encode v)
      (Sql.placeholder d' i, d'.encode w) := ⟨i, v, w, hv, hn, rfl, rfl⟩
  induction h with
  | nil => exact .cons hp .nil
  | cons hq hs ih =>
      obtain ⟨j, v', w', hv', hn', rfl, rfl⟩ := hq
      simp only [QueryCompiler.setValue, Sql.placeholder_inj]
      split
      · exact .cons hp hs
      · exact .cons ⟨j, v', w', hv', hn', rfl, rfl⟩ ih

/-- Binding matched values keeps contexts alike: both get the placeholder of one number. -/
theorem bind (h : Context.Alike M d d' ctx ctx') {v w : Value} (hv : M.values v w)
    (hn : v.isNull = false) :
    Context.Alike M d d' (ctx.bind (d.encode v)) (ctx'.bind (d'.encode w)) := by
  have hl : ctx.params.length = ctx'.params.length := h.params.length_eq
  refine { h with params := ?_ }
  show List.Forall₂ _ (QueryCompiler.setValue (Sql.placeholder ctx.dialect _) _ _)
    (QueryCompiler.setValue (Sql.placeholder ctx'.dialect _) _ _)
  rw [h.dialect_eq, h.dialect_eq', ← hl]
  exact setValue hv hn _ h.params

end Context.Alike

/-! ## Steps -/

/-- Both outcomes are successes with related results and alike contexts, or failures for the same
reason; the sessions go on with alike supplies. -/
inductive OutcomeAlike (M : Matching) (d d' : Dialect) {α β : Type} (A : α → β → Prop) :
    Except CompileError (α × Context) × Session → Except CompileError (β × Context) × Session → Prop
  | ok {a a' ctx ctx' s s'} : A a a' → Context.Alike M d d' ctx ctx' →
      Supply.Alike M s.supply s'.supply →
      OutcomeAlike M d d' A (.ok (a, ctx), s) (.ok (a', ctx'), s')
  | error {e e' s s'} : CompileError.Alike M e e' → Supply.Alike M s.supply s'.supply →
      OutcomeAlike M d d' A (.error e, s) (.error e', s')

namespace CompileM

/-- From alike contexts and supplies both steps come to alike outcomes. -/
def InStep (M : Matching) (d d' : Dialect) {α β : Type} (A : α → β → Prop) (m : CompileM α)
    (m' : CompileM β) : Prop :=
  ∀ (ctx ctx' : Context) (s s' : Session), Context.Alike M d d' ctx ctx' →
    Supply.Alike M s.supply s'.supply →
      OutcomeAlike M d d' A (outcome m ctx s) (outcome m' ctx' s')

namespace InStep

variable {α β γ δ : Type} {A : α → β → Prop} {B : γ → δ → Prop}

protected theorem pure {a : α} {a' : β} (h : A a a') : InStep M d d' A (pure a) (pure a') :=
  fun _ _ _ _ hc hs => .ok h hc hs

theorem throw (e : CompileError) : InStep M d d' A (throw e) (throw e) :=
  fun _ _ _ _ _ hs => .error .same hs

theorem missingAlias (node : String) {i i' : NodeId} (hi : M.ids i i') :
    InStep M d d' A (MonadExcept.throw (.missingAlias node i))
      (MonadExcept.throw (.missingAlias node i')) :=
  fun _ _ _ _ _ hs => .error (.missingAlias hi) hs

protected theorem bind {m : CompileM α} {m' : CompileM β} {f : α → CompileM γ}
    {f' : β → CompileM δ} (hm : InStep M d d' A m m')
    (hf : ∀ {a a'}, A a a' → InStep M d d' B (f a) (f' a')) :
    InStep M d d' B (m >>= f) (m' >>= f') := by
  intro ctx ctx' s s' hc hs
  rw [outcome_bind, outcome_bind]
  have h := hm ctx ctx' s s' hc hs
  revert h
  generalize outcome m ctx s = r
  generalize outcome m' ctx' s' = r'
  intro h
  cases h with
  | ok ha hc hs => exact hf ha _ _ _ _ hc hs
  | error he hs => exact .error he hs

theorem build {b : Build α} {b' : Build β} (h : Build.InStep M A b b') :
    InStep M d d' A (build b) (build b') := by
  intro ctx ctx' s s' hc hs
  obtain ⟨ha, hs⟩ := h s.supply s'.supply hs
  exact .ok ha hc hs

theorem report (event event' : Event) :
    InStep M d d' (fun _ _ => True) (report event) (report event') :=
  fun _ _ _ _ hc hs => .ok trivial hc hs

/-- What a step does with the context it reads. -/
theorem withContext {f : Context → CompileM α} {f' : Context → CompileM β}
    (h : ∀ {ctx ctx'}, Context.Alike M d d' ctx ctx' → InStep M d d' A (f ctx) (f' ctx')) :
    InStep M d d' A (get >>= f) (get >>= f') := by
  intro ctx ctx' s s' hc hs
  exact h hc ctx ctx' s s' hc hs

theorem referenceOf {i i' : NodeId} (hi : M.ids i i') :
    InStep M d d' Eq (referenceOf i) (referenceOf i') :=
  fun _ _ _ _ hc hs => .ok (hc.referenceOf_eq hi) hc hs

theorem registerAll (qualifier : String) {fields fields' : List (NodeId × String)}
    (hf : List.Forall₂ (Context.Alike.FieldAlike M) fields fields') :
    InStep M d d' (fun _ _ => True) (registerAll qualifier fields)
      (registerAll qualifier fields') :=
  fun _ _ _ _ hc hs => .ok trivial (hc.registerAll qualifier hf) hs

theorem takeAlias : InStep M d d' Eq takeAlias takeAlias :=
  fun _ _ _ _ hc hs => .ok (congrArg Context.aliasName hc.nextAlias_eq) hc.takeAlias hs

theorem bindValue {v w : Value} (hv : M.values v w) (hn : v.isNull = false) :
    InStep M d d' Eq (bindValue (d.encode v)) (bindValue (d'.encode w)) :=
  fun _ _ _ _ hc hs => .ok hc.params.length_eq (hc.bind hv hn) hs

theorem indented {m : CompileM α} {m' : CompileM β} (levels : Nat) (h : InStep M d d' A m m') :
    InStep M d d' A (indented levels m) (indented levels m') := by
  intro ctx ctx' s s' hc hs
  rw [outcome_indented, outcome_indented]
  have h := h _ _ s s' (hc.withIndent (ctx.indent + levels) (ctx'.indent + levels)) hs
  revert h
  generalize outcome m _ s = r
  generalize outcome m' _ s' = r'
  intro h
  cases h with
  | ok ha hc hs => exact .ok ha (hc.withIndent ctx.indent ctx'.indent) hs
  | error he hs => exact .error he hs

theorem normalize {q q' : Query} (h : q.normalize.Alike M.values q'.normalize) :
    InStep M d d' (Query.Alike M.values) (normalize q) (normalize q') := by
  intro ctx ctx' s s' hc hs
  obtain ⟨trace, hq⟩ := outcome_normalize q ctx s
  obtain ⟨trace', hq'⟩ := outcome_normalize q' ctx' s'
  rw [hq, hq']
  exact .ok h hc hs

end InStep

end CompileM

end QueryCompiler
