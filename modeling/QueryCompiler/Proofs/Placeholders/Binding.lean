import QueryCompiler.Proofs.Characters
import QueryCompiler.Proofs.Growth
import QueryCompiler.Proofs.Placeholders.Render

/-! # `QueryCompiler.Proofs.Placeholders.Binding` — the numbers a step gives out

Each step of a compilation binds the values of its literals under the next free numbers.  A step
*binds* in this sense: from a context whose placeholders are `p0`, `p1` and so on, in order, it
comes to such a context again, and what it returns is related to the numbers given out on the way.

    m binds A    f a binds B, for numbers behind those of m
    --------------------------------------------------------
    m >>= f   binds B, for the numbers of both

The mark of a dialect is neither a letter nor a digit, so the names of output columns show a mark
only if a table, a column or an alias does.
-/

namespace QueryCompiler

open Sql (MarkFree placeholder)

/-- Placeholders are numbered in order, and no place that nodes are read from shows a mark. -/
structure Context.Tidy (d : Dialect) (ctx : Context) : Prop where
  dialect_eq : ctx.dialect = d
  keys_eq : ctx.params.map (·.1) = (List.range ctx.params.length).map (placeholder d)
  aliases : ∀ a ∈ ctx.aliases, MarkFree d a.2.qualifier ∧ MarkFree d a.2.field

/-- From a tidy context the step comes to a tidy one, and `A` relates what it returns to the numbers
it gives out. -/
def CompileM.Binds (d : Dialect) {α : Type} (A : List Nat → α → Prop) (m : CompileM α) : Prop :=
  ∀ (ctx : Context) (s : Session) (a : α) (ctx' : Context) (s' : Session), ctx.Tidy d →
    outcome m ctx s = (.ok (a, ctx'), s') →
      ctx'.Tidy d ∧ ∃ n, ctx'.params.length = ctx.params.length + n ∧
        A (List.range' ctx.params.length n) a

variable {d : Dialect}

/-! ## Names without a mark -/

theorem Dialect.foreign_mark (d : Dialect) : Text.Foreign d.mark := by
  cases d <;> exact ⟨by decide, by decide, by decide⟩

theorem markFree_aliasName (d : Dialect) (n : Nat) : MarkFree d (Context.aliasName n) :=
  d.foreign_mark.aliasName n

/-- A column node shows no mark; other nodes name nothing. -/
def ColumnMarkFree (d : Dialect) : Expr → Prop := ColumnLacks d.mark

/-- Output columns have names without a mark, if there is none in the fields that are read, the
names given for outputs, and the tables and names of columns. -/
theorem markFree_outputNames {referenceOf : NodeId → Option Reference}
    (hr : ∀ id, ∀ r ∈ referenceOf id, MarkFree d r.field) {given : List String}
    (hg : ∀ name ∈ given, MarkFree d name) {es : List Expr} (he : ∀ e ∈ es, ColumnMarkFree d e) :
    ∀ name ∈ outputNames referenceOf given es, MarkFree d name :=
  d.foreign_mark.outputNames hr hg he

/-! ## Contexts -/

namespace Context.Tidy

theorem empty (d : Dialect) : (Context.empty d).Tidy d := ⟨rfl, rfl, by simp [Context.empty]⟩

theorem referenceOf {ctx : Context} (h : ctx.Tidy d) (id : NodeId) :
    ∀ r ∈ ctx.referenceOf id, MarkFree d r.qualifier ∧ MarkFree d r.field := by
  intro r hr
  obtain ⟨l₁, l₂, hl, -⟩ := List.lookup_eq_some_iff.1 hr
  exact h.aliases (id, r) (hl ▸ by simp)

theorem registerAll {qualifier : String} (hq : MarkFree d qualifier) :
    ∀ {fields : List (NodeId × String)} {ctx : Context}, (∀ f ∈ fields, MarkFree d f.2) →
      ctx.Tidy d → (ctx.registerAll qualifier fields).Tidy d
  | [], _, _, h => h
  | (id, field) :: fields, ctx, hf, h => by
      rw [List.forall_mem_cons] at hf
      show ((ctx.register id ⟨qualifier, field⟩).registerAll qualifier fields).Tidy d
      exact registerAll hq hf.2
        ⟨h.dialect_eq, h.keys_eq, List.forall_mem_cons.2 ⟨⟨hq, hf.1⟩, h.aliases⟩⟩

theorem params_registerAll (qualifier : String) : ∀ (fields : List (NodeId × String))
    (ctx : Context), (ctx.registerAll qualifier fields).params = ctx.params
  | [], _ => rfl
  | (_, _) :: fields, _ => params_registerAll qualifier fields _

theorem ordered {ctx : Context} (h : ctx.Tidy d) : ctx.Ordered d := ⟨h.dialect_eq, h.keys_eq⟩

theorem bind {ctx : Context} (h : ctx.Tidy d) (value : Value) : (ctx.bind value).Tidy d :=
  ⟨h.dialect_eq, (h.ordered.bind value).keys_eq, h.aliases⟩

end Context.Tidy

/-! ## Steps -/

namespace CompileM.Binds

variable {α β : Type} {A B : List Nat → α → Prop}

/-- A step that leaves the placeholders as they are gives out no number. -/
theorem silent {m : CompileM α} {P : α → Prop}
    (h : ∀ (ctx : Context) (s : Session) (a : α) (ctx' : Context) (s' : Session), ctx.Tidy d →
      outcome m ctx s = (.ok (a, ctx'), s') →
        ctx'.Tidy d ∧ ctx'.params = ctx.params ∧ P a) :
    Binds d (fun is a => is = [] ∧ P a) m := by
  intro ctx s a ctx' s' hc hm
  obtain ⟨hc', hparams, ha⟩ := h ctx s a ctx' s' hc hm
  exact ⟨hc', 0, congrArg List.length hparams, rfl, ha⟩

theorem pure {a : α} (h : A [] a) : Binds d A (pure a) := by
  intro ctx s a' ctx' s' hc hm
  obtain ⟨rfl, rfl, -⟩ := pure_eq_ok.1 hm
  exact ⟨hc, 0, rfl, h⟩

theorem throw (e : CompileError) : Binds d A (throw e) := by
  intro ctx s a ctx' s' hc hm
  exact (throw_eq_ok.1 hm).elim

/-- The numbers of two steps follow on each other. -/
theorem bind {m : CompileM α} {f : α → CompileM β} {B : List Nat → β → Prop} (hm : Binds d A m)
    (hf : ∀ is a, A is a → Binds d (fun js b => B (is ++ js) b) (f a)) : Binds d B (m >>= f) := by
  intro ctx s b ctx' s' hc hmf
  obtain ⟨a, ctx₁, s₁, h₁, h₂⟩ := bind_eq_ok.1 hmf
  obtain ⟨hc₁, n, hn, ha⟩ := hm ctx s a ctx₁ s₁ hc h₁
  obtain ⟨hc', k, hk, hb⟩ := hf _ a ha ctx₁ s₁ b ctx' s' hc₁ h₂
  refine ⟨hc', n + k, by omega, ?_⟩
  rwa [hn, List.range'_append_1] at hb

theorem mono {m : CompileM α} (hm : Binds d A m) (h : ∀ is a, A is a → B is a) : Binds d B m := by
  intro ctx s a ctx' s' hc hmc
  obtain ⟨hc', n, hn, ha⟩ := hm ctx s a ctx' s' hc hmc
  exact ⟨hc', n, hn, h _ _ ha⟩

theorem withContext {f : Context → CompileM α}
    (h : ∀ ctx : Context, ctx.Tidy d → Binds d A (f ctx)) : Binds d A (get >>= f) := by
  intro ctx s a ctx' s' hc hm
  obtain ⟨_, _, _, hget, hf⟩ := bind_eq_ok.1 hm
  obtain ⟨rfl, rfl, rfl⟩ := get_eq_ok.1 hget
  exact h _ hc _ _ _ _ _ hc hf

theorem build {b : Build α} {P : α → Prop} (h : Build.Returns P b) :
    Binds d (fun is a => is = [] ∧ P a) (build b) :=
  silent fun ctx s a ctx' s' hc hm => by
    obtain ⟨rfl, rfl, -⟩ := build_eq_ok.1 hm
    exact ⟨hc, rfl, h _⟩

theorem report (event : Event) : Binds d (fun is _ => is = [] ∧ True) (report event) :=
  silent fun ctx s a ctx' s' hc hm => by
    obtain ⟨rfl, -⟩ := report_eq_ok.1 hm
    exact ⟨hc, rfl, trivial⟩

theorem referenceOf (id : NodeId) :
    Binds d (fun is r => is = [] ∧ ∀ ref ∈ r, MarkFree d ref.qualifier ∧ MarkFree d ref.field)
      (referenceOf id) :=
  silent fun ctx s r ctx' s' hc hm => by
    obtain ⟨rfl, rfl, -⟩ := referenceOf_eq_ok.1 hm
    exact ⟨hc, rfl, hc.referenceOf id⟩

theorem registerAll {qualifier : String} (hq : MarkFree d qualifier)
    {fields : List (NodeId × String)} (hf : ∀ f ∈ fields, MarkFree d f.2) :
    Binds d (fun is _ => is = [] ∧ True) (registerAll qualifier fields) :=
  silent fun ctx s u ctx' s' hc hm => by
    obtain ⟨rfl, -⟩ := registerAll_eq_ok.1 hm
    exact ⟨.registerAll hq hf hc, Context.Tidy.params_registerAll .., trivial⟩

theorem takeAlias : Binds d (fun is label => is = [] ∧ MarkFree d label) takeAlias :=
  silent fun ctx s label ctx' s' hc hm => by
    obtain ⟨rfl, rfl, -⟩ := takeAlias_eq_ok.1 hm
    exact ⟨⟨hc.dialect_eq, hc.keys_eq, hc.aliases⟩, rfl, markFree_aliasName d _⟩

theorem bindValue (value : Value) : Binds d (fun is index => is = [index]) (bindValue value) := by
  intro ctx s index ctx' s' hc hm
  obtain ⟨rfl, rfl, -⟩ := bindValue_eq_ok.1 hm
  exact ⟨hc.bind value, 1, by simp [hc.ordered.params_bind], rfl⟩

theorem indented {m : CompileM α} (levels : Nat) (hm : Binds d A m) :
    Binds d A (indented levels m) := by
  intro ctx s a ctx' s' hc h
  obtain ⟨ctx₁, hok, rfl⟩ := indented_eq_ok.1 h
  have hin : ({ ctx with indent := ctx.indent + levels } : Context).Tidy d :=
    ⟨hc.dialect_eq, hc.keys_eq, hc.aliases⟩
  obtain ⟨hc₁, n, hn, ha⟩ := hm _ s a ctx₁ s' hin hok
  exact ⟨⟨hc₁.dialect_eq, hc₁.keys_eq, hc₁.aliases⟩, n, hn, ha⟩

theorem normalize (q : Query) :
    Binds d (fun is normal => is = [] ∧ normal = q.normalize) (normalize q) :=
  silent fun ctx s a ctx' s' hc hm => by
    obtain ⟨trace, hn⟩ := outcome_normalize q ctx s
    rw [hn] at hm
    cases hm
    exact ⟨hc, rfl, rfl⟩

end CompileM.Binds

end QueryCompiler
