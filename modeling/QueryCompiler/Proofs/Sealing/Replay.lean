import QueryCompiler.Proofs.Characters
import QueryCompiler.Proofs.Nesting
import QueryCompiler.Proofs.Outputs
import QueryCompiler.Proofs.Scoping.References
import QueryCompiler.Proofs.Steps

/-! # `QueryCompiler.Proofs.Sealing.Replay` — what a step reads, and where it can be replayed

The clauses of a statement read registered nodes and register the tables that they join.  Without
subqueries that is all they do to the registrations, so two things can be said of a step from the
references in what it returns:

* every reference is one that was registered before, or one to a table that the step joined;
* the step can be *replayed* where fewer nodes are registered, and comes to the same, as long as the
  references it returns are all to sources that are still known.

The contexts for a replay are *seals* of the first one: of the registrations they keep those to
aliases with numbers from some number on.

    m reads fs and joins ls    f a reads gs and joins ls'
    -----------------------------------------------------
    m >>= f   reads fs ++ gs and joins ls ++ ls'
-/

namespace QueryCompiler

/-! ## Registrations -/

namespace Context

/-- What registering fields of one source puts in front, the last first. -/
def registrations (label : String) (fields : List (NodeId × String)) : List (NodeId × Reference) :=
  (fields.map fun f => (f.1, ⟨label, f.2⟩)).reverse

theorem registerAll_eq (label : String) : ∀ (fields : List (NodeId × String)) (ctx : Context),
    ctx.registerAll label fields =
      { ctx with aliases := registrations label fields ++ ctx.aliases }
  | [], _ => rfl
  | (id, field) :: fields, ctx => by
      rw [registerAll, registerAll_eq label fields]
      simp [register, registrations]

theorem qualifier_of_lookup {label : String} {fields : List (NodeId × String)} {id : NodeId}
    {r : Reference} (h : (registrations label fields).lookup id = some r) : r.qualifier = label := by
  obtain ⟨l₁, l₂, hl, -⟩ := List.lookup_eq_some_iff.1 h
  have hmem : (id, r) ∈ registrations label fields := hl ▸ by simp
  obtain ⟨f, -, hf⟩ := List.mem_map.1 (List.mem_reverse.1 hmem)
  exact congrArg (fun p => p.2.qualifier) hf.symm

/-- A node is read from the source that was registered last, if that offers it. -/
theorem referenceOf_registerAll_eq (label : String) (fields : List (NodeId × String))
    (ctx : Context) (id : NodeId) :
    (ctx.registerAll label fields).referenceOf id =
      ((registrations label fields).lookup id).or (ctx.referenceOf id) := by
  rw [registerAll_eq]
  exact List.lookup_append

/-! ## Contexts -/

/-- An alias with a number from `m` on. -/
def Recent (m : Nat) (label : String) : Prop := ∃ k, m ≤ k ∧ label = aliasName k

/-- Every node is read from a source whose alias has been given out. -/
def Numbered (ctx : Context) : Prop :=
  ∀ id r, ctx.referenceOf id = some r → ∃ k < ctx.nextAlias, r.qualifier = aliasName k

def Within (labels : List String) (ctx : Context) : Prop :=
  ∀ id r, ctx.referenceOf id = some r → r.qualifier ∈ labels

/-- The second context is the first one without the registrations to aliases below `m`. -/
structure Seals (m : Nat) (ctx ctx' : Context) : Prop where
  eq : ctx' = { ctx with aliases := ctx'.aliases }
  read_iff : ∀ id r, ctx'.referenceOf id = some r ↔
    ctx.referenceOf id = some r ∧ Recent m r.qualifier

theorem aliasName_inj {k k' : Nat} : aliasName k = aliasName k' ↔ k = k' := by
  constructor
  · exact fun h => Text.toString_nat_injective ((String.append_right_inj _).1 h)
  · rintro rfl
    rfl

theorem Seals.eq_none {m : Nat} {ctx ctx' : Context} (h : ctx.Seals m ctx') {id : NodeId}
    (hid : ctx.referenceOf id = none) : ctx'.referenceOf id = none := by
  cases hr : ctx'.referenceOf id with
  | none => rfl
  | some r =>
      rw [((h.read_iff id r).1 hr).1] at hid
      cases hid

/-- Registering the same fields of a recent source keeps a seal. -/
theorem Seals.registerAll {m : Nat} {ctx ctx' : Context} (h : ctx.Seals m ctx') {label : String}
    (hl : Recent m label) (fields : List (NodeId × String)) :
    (ctx.registerAll label fields).Seals m (ctx'.registerAll label fields) where
  eq := by
    rw [registerAll_eq, registerAll_eq, h.eq]
  read_iff id r := by
    rw [referenceOf_registerAll_eq, referenceOf_registerAll_eq]
    cases hlookup : (registrations label fields).lookup id with
    | none => exact h.read_iff id r
    | some r' =>
        simp only [Option.some_or, Option.some.injEq]
        constructor
        · rintro rfl
          exact ⟨rfl, qualifier_of_lookup hlookup ▸ hl⟩
        · exact And.left

end Context

/-! ## Steps -/

namespace CompileM

variable {α β : Type}

/-- What is known of a step that came to `a` and returned references `fs`, having joined the sources
`labels`. -/
structure Replayable (m : Nat) (step : CompileM α) (ctx : Context) (s : Session) (a : α)
    (ctx₁ : Context) (s₁ : Session) (fs : List Reference) (labels : List String) : Prop where
  nextAlias_le : ctx.nextAlias ≤ ctx₁.nextAlias
  aliases_eq : labels = [] → ctx₁.aliases = ctx.aliases
  numbered : ctx.Numbered → ctx₁.Numbered
  recent : ∀ label ∈ labels, Context.Recent m label
  within : ∀ before, ctx.Within before → ctx₁.Within (before ++ labels)
  refers : ∀ before, ctx.Within before → ∀ r ∈ fs, r.qualifier ∈ before ++ labels
  replay : ∀ ctx', ctx.Seals m ctx' → (∀ r ∈ fs, Context.Recent m r.qualifier) →
    ∃ ctx₁', outcome step ctx' s = (.ok (a, ctx₁'), s₁) ∧ ctx₁.Seals m ctx₁'

/-- When the step succeeds, `A` relates what it returns to the references in it and to the sources it
joined. -/
def Replays (m : Nat) (A : List Reference → List String → α → Prop) (step : CompileM α) : Prop :=
  ∀ ⦃ctx : Context⦄ ⦃s : Session⦄ ⦃a : α⦄ ⦃ctx₁ : Context⦄ ⦃s₁ : Session⦄, m ≤ ctx.nextAlias →
    outcome step ctx s = (.ok (a, ctx₁), s₁) →
      ∃ fs labels, A fs labels a ∧ Replayable m step ctx s a ctx₁ s₁ fs labels

/-- Nothing is referred to and nothing joined. -/
def Nothing (P : α → Prop) (fs : List Reference) (labels : List String) (a : α) : Prop :=
  fs = [] ∧ labels = [] ∧ P a

/-- The references are those of the result, and nothing is joined. -/
def Refers (refs : α → List Reference) (fs : List Reference) (labels : List String) (a : α) :
    Prop :=
  fs = refs a ∧ labels = []

theorem Replayable.trans {m : Nat} {step : CompileM α} {f : α → CompileM β} {ctx ctx₁ ctx₂ : Context}
    {s s₁ s₂ : Session} {a : α} {b : β} {fs gs : List Reference} {labels labels' : List String}
    (h : Replayable m step ctx s a ctx₁ s₁ fs labels)
    (h' : Replayable m (f a) ctx₁ s₁ b ctx₂ s₂ gs labels') :
    Replayable m (step >>= f) ctx s b ctx₂ s₂ (fs ++ gs) (labels ++ labels') where
  nextAlias_le := Nat.le_trans h.nextAlias_le h'.nextAlias_le
  aliases_eq he := by
    obtain ⟨hl, hl'⟩ := List.append_eq_nil_iff.1 he
    exact (h'.aliases_eq hl').trans (h.aliases_eq hl)
  numbered hn := h'.numbered (h.numbered hn)
  recent label hlabel := (List.mem_append.1 hlabel).elim (h.recent label) (h'.recent label)
  within before hw := by
    rw [← List.append_assoc]
    exact h'.within _ (h.within before hw)
  refers before hw r hr := by
    rw [← List.append_assoc]
    rcases List.mem_append.1 hr with hr | hr
    · exact List.mem_append_left _ (h.refers before hw r hr)
    · exact h'.refers _ (h.within before hw) r hr
  replay ctx' hc hrecent := by
    rw [List.forall_mem_append] at hrecent
    obtain ⟨ctx₁', hok, hc₁⟩ := h.replay ctx' hc hrecent.1
    obtain ⟨ctx₂', hok', hc₂⟩ := h'.replay ctx₁' hc₁ hrecent.2
    exact ⟨ctx₂', bind_eq_ok.2 ⟨a, ctx₁', s₁, hok, hok'⟩, hc₂⟩

namespace Replays

variable {m : Nat} {A B : List Reference → List String → α → Prop} {step : CompileM α}

theorem mono (h : Replays m A step) (hAB : ∀ fs labels a, A fs labels a → B fs labels a) :
    Replays m B step := by
  intro ctx s a ctx₁ s₁ hm hok
  obtain ⟨fs, labels, ha, hread⟩ := h hm hok
  exact ⟨fs, labels, hAB fs labels a ha, hread⟩

theorem throw (e : CompileError) : Replays m A (throw e) := fun _ _ _ _ _ _ hok =>
  (throw_eq_ok.1 hok).elim

theorem bind {f : α → CompileM β} {B : List Reference → List String → β → Prop}
    (h : Replays m A step)
    (hf : ∀ fs labels a, A fs labels a →
      Replays m (fun gs labels' b => B (fs ++ gs) (labels ++ labels') b) (f a)) :
    Replays m B (step >>= f) := by
  intro ctx s b ctx₂ s₂ hm hok
  obtain ⟨a, ctx₁, s₁, h₁, h₂⟩ := bind_eq_ok.1 hok
  obtain ⟨fs, labels, ha, hread⟩ := h hm h₁
  obtain ⟨gs, labels', hb, hread'⟩ := hf fs labels a ha (Nat.le_trans hm hread.nextAlias_le) h₂
  exact ⟨fs ++ gs, labels ++ labels', hb, hread.trans hread'⟩

/-- A step that neither reads nor registers nodes. -/
theorem still {P : α → Prop}
    (h : ∀ ⦃ctx : Context⦄ ⦃s : Session⦄ ⦃a : α⦄ ⦃ctx₁ : Context⦄ ⦃s₁ : Session⦄,
      outcome step ctx s = (.ok (a, ctx₁), s₁) →
        P a ∧ ctx₁.aliases = ctx.aliases ∧ ctx₁.nextAlias = ctx.nextAlias ∧
        ∀ aliases, outcome step { ctx with aliases := aliases } s =
          (.ok (a, { ctx₁ with aliases := aliases }), s₁)) :
    Replays m (Nothing P) step := by
  intro ctx s a ctx₁ s₁ _ hok
  obtain ⟨ha, haliases, hnext, hreplay⟩ := h hok
  have hread : ctx₁.referenceOf = ctx.referenceOf := by
    funext id
    rw [Context.referenceOf, haliases, Context.referenceOf]
  refine ⟨[], [], ⟨rfl, rfl, ha⟩, Nat.le_of_eq hnext.symm, fun _ => haliases, ?_, by simp, ?_,
    by simp, ?_⟩
  · intro hn id r hr
    rw [hnext]
    rw [hread] at hr
    exact hn id r hr
  · intro before hw id r hr
    rw [hread] at hr
    exact List.mem_append_left _ (hw id r hr)
  · intro ctx' hc _
    refine ⟨{ ctx₁ with aliases := ctx'.aliases }, hc.eq ▸ hreplay ctx'.aliases, rfl,
      fun id r => ?_⟩
    rw [hread]
    exact hc.read_iff id r

theorem pure {a : α} (h : A [] [] a) : Replays m A (pure a) := by
  have hstill : Replays m (Nothing fun a' => a' = a) (Pure.pure a) := still fun _ _ _ _ _ hok => by
    obtain ⟨rfl, rfl, rfl⟩ := pure_eq_ok.1 hok
    exact ⟨rfl, rfl, rfl, fun _ => rfl⟩
  refine hstill.mono ?_
  rintro _ _ _ ⟨rfl, rfl, rfl⟩
  exact h

theorem build {b : Build α} {P : α → Prop} (h : Build.Returns P b) :
    Replays m (Nothing P) (build b) :=
  still fun _ _ _ _ _ hok => by
    obtain ⟨rfl, rfl, rfl⟩ := build_eq_ok.1 hok
    exact ⟨h _, rfl, rfl, fun _ => rfl⟩

theorem report (event : Event) : Replays m (Nothing fun _ => True) (report event) :=
  still fun _ _ _ _ _ hok => by
    obtain ⟨rfl, rfl⟩ := report_eq_ok.1 hok
    exact ⟨trivial, rfl, rfl, fun _ => rfl⟩

/-- A new source under the next alias. -/
theorem register (fields : List (NodeId × String)) :
    Replays m (fun fs labels label => fs = [] ∧ labels = [label] ∧ Context.Recent m label) (do
      let label ← takeAlias
      registerAll label fields
      return label) := by
  intro ctx s label ctx₁ s₁ hm hok
  simp only [bind_eq_ok, takeAlias_eq_ok, registerAll_eq_ok, pure_eq_ok] at hok
  obtain ⟨_, _, _, ⟨rfl, rfl, rfl⟩, _, _, _, ⟨rfl, rfl⟩, rfl, rfl, rfl⟩ := hok
  have hrecent : Context.Recent m (Context.aliasName ctx.nextAlias) := ⟨_, hm, rfl⟩
  have hnext : (ctx.takeAlias.registerAll (Context.aliasName ctx.nextAlias) fields).nextAlias =
      ctx.nextAlias + 1 := by
    rw [Context.registerAll_eq]
    rfl
  have hread : ∀ {id r}, (ctx.takeAlias.registerAll (Context.aliasName ctx.nextAlias)
      fields).referenceOf id = some r →
        r.qualifier = Context.aliasName ctx.nextAlias ∨ ctx.referenceOf id = some r := by
    intro id r hr
    rw [Context.referenceOf_registerAll_eq] at hr
    rcases Option.or_eq_some_iff.1 hr with hr | ⟨-, hr⟩
    · exact .inl (Context.qualifier_of_lookup hr)
    · exact .inr hr
  refine ⟨[], [_], ⟨rfl, rfl, hrecent⟩, ?_, ?_, ?_, ?_, ?_, by simp, ?_⟩
  · rw [hnext]
    exact Nat.le_succ _
  · intro hnil
    exact absurd hnil (List.cons_ne_nil _ _)
  · intro hn id r hr
    rw [hnext]
    rcases hread hr with hq | hr
    · exact ⟨_, Nat.lt_succ_self _, hq⟩
    · obtain ⟨k, hk, hq⟩ := hn id r hr
      exact ⟨k, Nat.lt_succ_of_lt hk, hq⟩
  · intro label hlabel
    rw [List.mem_singleton.1 hlabel]
    exact hrecent
  · intro before hw id r hr
    rcases hread hr with hq | hr
    · exact List.mem_append_right _ (List.mem_singleton.2 hq)
    · exact List.mem_append_left _ (hw id r hr)
  · intro ctx' hc _
    have hnext' : ctx'.nextAlias = ctx.nextAlias := by rw [hc.eq]
    have htake : ctx.takeAlias.Seals m ctx'.takeAlias := by
      refine ⟨?_, hc.read_iff⟩
      rw [hc.eq]
      rfl
    refine ⟨_, ?_, htake.registerAll hrecent fields⟩
    simp only [bind_eq_ok, takeAlias_eq_ok, registerAll_eq_ok, pure_eq_ok, hnext']
    exact ⟨_, _, _, ⟨rfl, rfl, rfl⟩, (), _, _, ⟨rfl, rfl⟩, rfl, rfl, rfl⟩

/-- A new source and what follows it. -/
theorem newSource {f : String → CompileM α} (fields : List (NodeId × String))
    (hf : ∀ label, Context.Recent m label →
      Replays m (fun fs labels a => A fs (label :: labels) a) (f label)) :
    Replays m A (do
      let label ← takeAlias
      registerAll label fields
      f label) := by
  have h := (register (m := m) fields).bind (B := A) (f := f) ?_
  · simpa only [bind_assoc, pure_bind] using h
  · rintro _ _ label ⟨rfl, rfl, hlabel⟩
    exact hf label hlabel

end Replays

end CompileM

end QueryCompiler
