import QueryCompiler.Proofs.Growth

/-! # `QueryCompiler.Proofs.Rules` — the compiler of expressions as rules

Between two moments of a compilation an expression is written as `t` exactly if one of four rules
says so.

    registered    the field the node is read from                nothing happens
    bound         a placeholder for a literal                    its value is bound
    assembled     what the written operands are put together to  what the operands do
    subquery      the written needle, IN the statement           what the two of them do

Most kinds of expression fall under the third rule, and differ only in which operands they write and
in what is made of them, which is what `Expr.Assembles` says.  A fact about all expressions is proved
by induction on the rules then, and need not go through the kinds.
-/

namespace QueryCompiler

/-! ## Moments -/

/-- A point of a compilation. -/
structure Moment where
  context : Context
  session : Session

namespace Moment

def referenceOf (μ : Moment) (id : NodeId) : Option Reference := μ.context.referenceOf id

def deeper (μ : Moment) (levels : Nat) : Moment :=
  { μ with context := { μ.context with indent := μ.context.indent + levels } }

def bind (μ : Moment) (value : Value) : Moment := { μ with context := μ.context.bind value }

end Moment

namespace CompileM

variable {α β : Type} {m : CompileM α} {f : α → CompileM β} {μ ν κ : Moment} {a : α} {b : β}

/-- Run at the first moment, the step returns `a` at the second. -/
def Takes (m : CompileM α) (μ : Moment) (a : α) (ν : Moment) : Prop :=
  outcome m μ.context μ.session = (.ok (a, ν.context), ν.session)

theorem Takes.unique {a' : α} (h : m.Takes μ a ν) (h' : m.Takes μ a' κ) : a = a' ∧ ν = κ := by
  have he := h.symm.trans h'
  simp only [Prod.mk.injEq, Except.ok.injEq] at he
  obtain ⟨⟨ha, hc⟩, hs⟩ := he
  cases ν
  cases κ
  cases hc
  cases hs
  exact ⟨ha, rfl⟩

theorem takes_pure {a' : α} : (pure a : CompileM α).Takes μ a' ν ↔ a = a' ∧ μ = ν := by
  rw [Takes, pure_eq_ok]
  cases μ
  cases ν
  simp

theorem takes_throw {e : CompileError} : (throw e : CompileM α).Takes μ a ν ↔ False := throw_eq_ok

theorem takes_bind : (m >>= f).Takes μ b ν ↔ ∃ a κ, m.Takes μ a κ ∧ (f a).Takes κ b ν := by
  rw [Takes, bind_eq_ok]
  constructor
  · rintro ⟨a, ctx, s, hm, hf⟩
    exact ⟨a, ⟨ctx, s⟩, hm, hf⟩
  · rintro ⟨a, κ, hm, hf⟩
    exact ⟨a, κ.context, κ.session, hm, hf⟩

theorem takes_get {c : Context} : (get : CompileM Context).Takes μ c ν ↔ μ.context = c ∧ μ = ν := by
  rw [Takes, get_eq_ok]
  cases μ
  cases ν
  simp

theorem takes_build {b : Build α} :
    (build b).Takes μ a ν ↔
      (b μ.session.supply).1 = a ∧ μ.context = ν.context ∧
        { μ.session with supply := (b μ.session.supply).2 } = ν.session :=
  build_eq_ok

theorem takes_bindValue {value : Value} {n : Nat} :
    (bindValue value).Takes μ n ν ↔ μ.context.params.length = n ∧ μ.bind value = ν := by
  rw [Takes, bindValue_eq_ok]
  cases μ
  cases ν
  simp [Moment.bind]

theorem takes_registeredOr {id : NodeId} {own : CompileM Sql.Scalar} {t : Sql.Scalar} :
    (registeredOr id own).Takes μ t ν ↔
      (∃ r, μ.referenceOf id = some r ∧ .reference r.qualifier r.field = t ∧ μ = ν) ∨
        μ.referenceOf id = none ∧ own.Takes μ t ν := by
  rw [Takes, outcome_registeredOr, Moment.referenceOf]
  cases μ.context.referenceOf id with
  | none => simp [Takes]
  | some r =>
      cases μ
      cases ν
      simp [and_assoc]

theorem takes_requireOneColumn {select : Sql.Select} {u : Unit} :
    (requireOneColumn select).Takes μ u ν ↔ select.outputs.length = 1 ∧ μ = ν := by
  unfold requireOneColumn
  dsimp only
  split
  · next h => simp [takes_pure, h]
  · next h => simp [takes_throw, h]

theorem takes_normalize {q normal : Query} (h : (normalize q).Takes μ normal ν) :
    normal = q.normalize := by
  simp only [normalize, takes_bind, takes_pure] at h
  obtain ⟨_, _, -, rfl, -⟩ := h
  rfl

theorem Takes.indented {levels : Nat} (h : (indented levels m).Takes μ a ν) :
    ∃ κ, m.Takes (μ.deeper levels) a κ ∧ κ.context.Evolves ν.context := by
  obtain ⟨ctx, hok, hν⟩ := indented_eq_ok.1 h
  refine ⟨⟨ctx, ν.session⟩, hok, ?_⟩
  rw [← hν]
  exact .indent _ .refl

theorem Evolves.takes (hm : m.Evolves) (h : m.Takes μ a ν) : μ.context.Evolves ν.context := hm h

end CompileM

open CompileM

section

variable {scope : Scope} {q : Query} {μ ν : Moment}

/-- A query that is compiled comes to the statement of its block. -/
theorem Query.takes_compile {sub : SubqueryCompiler} {compiled : Compiled} :
    (q.compile sub scope).Takes μ compiled ν ↔
      ∃ block, q.block? = some block ∧ (block.compile sub scope).Takes μ compiled ν := by
  unfold Query.compile
  split
  · next block hblock => simp [hblock]
  · next hblock => simp [hblock, takes_throw]

/-- A subquery is compiled with one level less below it. -/
theorem takes_compileWithin_succ {depth : Nat} {select : Sql.Select} :
    (compileWithin (depth + 1) q scope).Takes μ select ν ↔
      ∃ compiled, (q.compile (compileWithin depth) scope).Takes μ compiled ν ∧
        compiled.select = select := by
  simp only [compileWithin, takes_bind, takes_pure]
  constructor
  · rintro ⟨compiled, _, hcompiled, hselect, rfl⟩
    exact ⟨compiled, hcompiled, hselect⟩
  · rintro ⟨compiled, hcompiled, hselect⟩
    exact ⟨compiled, ν, hcompiled, hselect, rfl⟩

end

/-! ## The rules -/

mutual

/-- An expression at a moment, its written form and the moment after it. -/
inductive Writes (sub : SubqueryCompiler) : Expr → Moment → Sql.Scalar → Moment → Prop
  | registered {e μ r} : μ.referenceOf e.id = some r →
      Writes sub e μ (.reference r.qualifier r.field) μ
  | bound {id value μ} : μ.referenceOf id = none → value.isNull = false →
      Writes sub (.literal id value) μ (.bound μ.context.params.length)
        (μ.bind (μ.context.dialect.encode value))
  | assembled {e es ts t μ ν} : μ.referenceOf e.id = none → e.Assembles es ts t →
      WritesAll sub es μ ts ν → Writes sub e μ t ν
  | subquery {id needle query scope t normal select μ κ ξ ν} : μ.referenceOf id = none →
      Writes sub needle μ t κ → (CompileM.normalize query).Takes κ normal ξ →
      (CompileM.indented 2 (sub normal scope)).Takes ξ select ν → select.outputs.length = 1 →
      Writes sub (.inQuery id needle query scope) μ (.inSelect t select) ν

/-- Expressions that are written one after another. -/
inductive WritesAll (sub : SubqueryCompiler) :
    List Expr → Moment → List Sql.Scalar → Moment → Prop
  | nil {μ} : WritesAll sub [] μ [] μ
  | cons {e es t ts μ κ ν} : Writes sub e μ t κ → WritesAll sub es κ ts ν →
      WritesAll sub (e :: es) μ (t :: ts) ν

end

section

variable {sub : SubqueryCompiler} {μ ν κ : Moment}

theorem WritesAll.one {e : Expr} {t : Sql.Scalar} (h : Writes sub e μ t ν) :
    WritesAll sub [e] μ [t] ν :=
  .cons h .nil

theorem WritesAll.length_eq : ∀ {es : List Expr} {ts : List Sql.Scalar} {μ : Moment},
    WritesAll sub es μ ts ν → ts.length = es.length
  | _, _, _, .nil => rfl
  | _, _, _, .cons _ hes => congrArg (· + 1) hes.length_eq

/-! ## What the compiler does follows the rules -/

theorem Writes.of_takes {e : Expr} {own : CompileM Sql.Scalar} {t : Sql.Scalar}
    (h : (registeredOr e.id own).Takes μ t ν)
    (hown : μ.referenceOf e.id = none → own.Takes μ t ν → Writes sub e μ t ν) :
    Writes sub e μ t ν := by
  rcases takes_registeredOr.1 h with ⟨r, hr, rfl, rfl⟩ | ⟨hid, h⟩
  · exact .registered hr
  · exact hown hid h

theorem WritesAll.of_takes : ∀ {es : List Expr} {μ : Moment} {ts : List Sql.Scalar} {ν : Moment},
    (∀ e ∈ es, ∀ {μ t ν}, (e.compile sub).Takes μ t ν → Writes sub e μ t ν) →
      (Expr.compileAll sub es).Takes μ ts ν → WritesAll sub es μ ts ν
  | [], _, _, _, _, h => by
      obtain ⟨rfl, rfl⟩ := takes_pure.1 h
      exact .nil
  | _ :: _, _, _, _, he, h => by
      rw [List.forall_mem_cons] at he
      simp only [Expr.compileAll, takes_bind, takes_pure] at h
      obtain ⟨t, κ, ht, ts, ξ, hts, rfl, rfl⟩ := h
      exact .cons (he.1 ht) (WritesAll.of_takes he.2 hts)

theorem Expr.writes (e : Expr) {μ : Moment} {t : Sql.Scalar} {ν : Moment}
    (h : (e.compile sub).Takes μ t ν) : Writes sub e μ t ν := by
  induction e using Expr.form_induction generalizing μ t ν with
  | refused _ he =>
      rw [he] at h
      exact .of_takes h fun _ h => (takes_throw.1 h).elim
  | bound hnull =>
      refine .of_takes h fun hid h => ?_
      rw [compileLiteral, if_neg (by simp [hnull])] at h
      simp only [takes_bind, takes_get, takes_bindValue, takes_pure] at h
      obtain ⟨_, _, ⟨rfl, rfl⟩, _, _, ⟨rfl, rfl⟩, rfl, rfl⟩ := h
      exact .bound hid hnull
  | assembled ha he ih =>
      rw [he] at h
      refine .of_takes h fun hid h => ?_
      simp only [takes_bind, takes_pure] at h
      obtain ⟨ts, κ, hts, rfl, rfl⟩ := h
      have hes := WritesAll.of_takes ih hts
      exact .assembled hid (ha ts hes.length_eq) hes
  | membership ih =>
      refine .of_takes h fun hid h => ?_
      simp only [takes_bind, takes_pure, takes_requireOneColumn] at h
      obtain ⟨t, κ, ht, normal, ξ, hnormal, select, ζ, hselect, _, _, ⟨hwidth, rfl⟩, rfl, rfl⟩ := h
      exact .subquery hid (ih ht) hnormal hselect hwidth

theorem Expr.writesAll (es : List Expr) {μ : Moment} {ts : List Sql.Scalar} {ν : Moment}
    (h : (Expr.compileAll sub es).Takes μ ts ν) : WritesAll sub es μ ts ν :=
  .of_takes (fun e _ => e.writes) h

/-! ## Whatever follows the rules, the compiler does -/

theorem takes_compileAll_cons {e : Expr} {es : List Expr} {t : Sql.Scalar} {ts : List Sql.Scalar} :
    (Expr.compileAll sub (e :: es)).Takes μ (t :: ts) ν ↔
      ∃ κ, (e.compile sub).Takes μ t κ ∧ (Expr.compileAll sub es).Takes κ ts ν := by
  simp only [Expr.compileAll, takes_bind, takes_pure, List.cons.injEq]
  constructor
  · rintro ⟨_, κ, ht, _, _, hts, ⟨rfl, rfl⟩, rfl⟩
    exact ⟨κ, ht, hts⟩
  · rintro ⟨κ, ht, hts⟩
    exact ⟨t, κ, ht, ts, ν, hts, ⟨rfl, rfl⟩, rfl⟩

theorem takes_compileAll_nil : (Expr.compileAll sub []).Takes μ [] ν ↔ μ = ν := by
  rw [Expr.compileAll, takes_pure, and_iff_right rfl]

/-- An expression that is not registered can be put together of its written operands. -/
theorem Expr.Assembles.takes {e : Expr} {es : List Expr} {ts : List Sql.Scalar} {t : Sql.Scalar}
    (ha : e.Assembles es ts t) (hid : μ.referenceOf e.id = none)
    (h : (Expr.compileAll sub es).Takes μ ts ν) : (e.compile sub).Takes μ t ν := by
  obtain ⟨make, hmake, he⟩ := ha.compile_eq
  obtain rfl := ha.unique (hmake ts (Expr.writesAll es h).length_eq)
  rw [he]
  exact takes_registeredOr.2 (.inr ⟨hid, takes_bind.2 ⟨ts, ν, h, takes_pure.2 ⟨rfl, rfl⟩⟩⟩)

mutual

theorem Writes.takes : ∀ {e : Expr} {μ : Moment} {t : Sql.Scalar} {ν : Moment},
    Writes sub e μ t ν → (e.compile sub).Takes μ t ν
  | e, _, _, _, .registered hr => by
      obtain ⟨own, hown⟩ := e.exists_own sub
      rw [hown]
      exact takes_registeredOr.2 (.inl ⟨_, hr, rfl, rfl⟩)
  | _, μ, _, _, .bound hid hnull => by
      refine takes_registeredOr.2 (.inr ⟨hid, ?_⟩)
      rw [compileLiteral, if_neg (by simp [hnull])]
      exact takes_bind.2 ⟨_, μ, takes_get.2 ⟨rfl, rfl⟩,
        takes_bind.2 ⟨_, _, takes_bindValue.2 ⟨rfl, rfl⟩, takes_pure.2 ⟨rfl, rfl⟩⟩⟩
  | _, _, _, _, .assembled hid ha hes => ha.takes hid hes.takes
  | _, _, _, _, .subquery hid hneedle hnormal hselect hwidth => by
      refine takes_registeredOr.2 (.inr ⟨hid, takes_bind.2 ⟨_, _, hneedle.takes, ?_⟩⟩)
      refine takes_bind.2 ⟨_, _, hnormal, takes_bind.2 ⟨_, _, hselect, ?_⟩⟩
      exact takes_bind.2 ⟨(), _, takes_requireOneColumn.2 ⟨hwidth, rfl⟩, takes_pure.2 ⟨rfl, rfl⟩⟩

theorem WritesAll.takes : ∀ {es : List Expr} {μ : Moment} {ts : List Sql.Scalar} {ν : Moment},
    WritesAll sub es μ ts ν → (Expr.compileAll sub es).Takes μ ts ν
  | _, _, _, _, .nil => takes_compileAll_nil.2 rfl
  | _, _, _, _, .cons he hes => takes_compileAll_cons.2 ⟨_, he.takes, hes.takes⟩

end

/-- The rules say what the compiler does, no more and no less. -/
theorem writes_iff {e : Expr} {t : Sql.Scalar} :
    (e.compile sub).Takes μ t ν ↔ Writes sub e μ t ν :=
  ⟨e.writes, Writes.takes⟩

/-! ## Expressions of a list -/

theorem Writes.evolves (hsub : sub.Evolves) {e : Expr} {t : Sql.Scalar} (h : Writes sub e μ t ν) :
    μ.context.Evolves ν.context :=
  Expr.compile_evolves hsub e h.takes

theorem WritesAll.evolves (hsub : sub.Evolves) {es : List Expr} {ts : List Sql.Scalar}
    (h : WritesAll sub es μ ts ν) : μ.context.Evolves ν.context :=
  Expr.compileAll_evolves hsub es h.takes

/-- A membership that is not registered writes its needle, and then the statement of its subquery. -/
theorem Writes.of_inQuery {id : NodeId} {needle : Expr} {query : Query} {scope : Scope}
    {t : Sql.Scalar} (h : Writes sub (.inQuery id needle query scope) μ t ν)
    (hid : μ.referenceOf id = none) :
    ∃ n κ normal ξ select, Writes sub needle μ n κ ∧ (CompileM.normalize query).Takes κ normal ξ ∧
      (CompileM.indented 2 (sub normal scope)).Takes ξ select ν ∧ t = .inSelect n select := by
  cases h with
  | registered hr => exact absurd (hid.symm.trans hr) (by simp)
  | assembled _ ha _ => cases ha
  | subquery _ hneedle hnormal hselect _ =>
      exact ⟨_, _, _, _, _, hneedle, hnormal, hselect, rfl⟩

theorem Writes.unique {e : Expr} {t t' : Sql.Scalar} (h : Writes sub e μ t ν)
    (h' : Writes sub e μ t' κ) : t = t' ∧ ν = κ :=
  h.takes.unique h'.takes

/-- Behind those before it, an expression of a list is written. -/
theorem WritesAll.split (hsub : sub.Evolves) {e : Expr} {es' : List Expr} {ν κ : Moment} :
    ∀ {es : List Expr} {ts us : List Sql.Scalar} {μ : Moment},
      WritesAll sub (es ++ e :: es') μ ts ν → WritesAll sub es μ us κ →
      ∃ t ∈ ts, ∃ ξ, Writes sub e κ t ξ ∧ ξ.context.Evolves ν.context
  | [], _, _, _, .cons he hes', .nil => ⟨_, List.mem_cons_self, _, he, hes'.evolves hsub⟩
  | _ :: _, _, _, _, .cons he h, .cons he' hes => by
      obtain ⟨-, rfl⟩ := he.unique he'
      obtain ⟨t, ht, hw⟩ := h.split hsub hes
      exact ⟨t, List.mem_cons_of_mem _ ht, hw⟩

/-- Each written form belongs to the writing of one of the expressions. -/
theorem WritesAll.exists_of_mem_zip (hsub : sub.Evolves) {e : Expr} {t : Sql.Scalar} :
    ∀ {es : List Expr} {ts : List Sql.Scalar} {μ : Moment}, WritesAll sub es μ ts ν →
      (e, t) ∈ es.zip ts →
      ∃ κ ξ, Writes sub e κ t ξ ∧ μ.context.Evolves κ.context ∧ ξ.context.Evolves ν.context
  | _, _, _, .nil, hmem => by simp at hmem
  | _, _, μ, .cons he hes, hmem => by
      rw [List.zip_cons_cons, List.mem_cons] at hmem
      rcases hmem with heq | hmem
      · obtain ⟨rfl, rfl⟩ := Prod.mk.inj heq
        exact ⟨μ, _, he, .refl, hes.evolves hsub⟩
      · obtain ⟨κ, ξ, hw, hκ, hξ⟩ := hes.exists_of_mem_zip hsub hmem
        exact ⟨κ, ξ, hw, (he.evolves hsub).trans hκ, hξ⟩

end

end QueryCompiler
