import QueryCompiler.Compiler

/-! # `QueryCompiler.Proofs.Steps` — running the steps of a compilation

A step takes a context and a session and gives an outcome and a session.  The lemmas here say what
each primitive step does when it is run, and take a sequence of steps apart: a sequence succeeds
exactly if its first step does and the rest does from there.
-/

theorem Except.bind_eq_ok {ε α β : Type} {x : Except ε α} {f : α → Except ε β} {b : β}
    (h : x >>= f = .ok b) : ∃ a, x = .ok a ∧ f a = .ok b := by
  cases x with
  | error _ => cases h
  | ok a => exact ⟨a, rfl, h⟩

theorem Except.eq_ok_of_toOption {ε α : Type} {x : Except ε α} {a : α} (h : x.toOption = some a) :
    x = .ok a := by
  cases x with
  | error _ => cases h
  | ok b => exact congrArg Except.ok (Option.some.inj h)

namespace QueryCompiler.CompileM

variable {α β : Type} {ctx ctx' : Context} {s s' : Session}

/-- What a step comes to, and the session it leaves. -/
def outcome (m : CompileM α) (ctx : Context) (s : Session) :
    Except CompileError (α × Context) × Session :=
  m ctx s

/-- Steps that come to the same everywhere are the same. -/
theorem ext {m m' : CompileM α} (h : ∀ ctx s, outcome m ctx s = outcome m' ctx s) : m = m' :=
  funext fun ctx => funext fun s => h ctx s

/-! ## Sequences -/

theorem outcome_pure (a : α) (ctx : Context) (s : Session) :
    outcome (pure a) ctx s = (.ok (a, ctx), s) := rfl

theorem outcome_throw (e : CompileError) (ctx : Context) (s : Session) :
    outcome (throw e : CompileM α) ctx s = (.error e, s) := rfl

theorem outcome_bind (m : CompileM α) (f : α → CompileM β) (ctx : Context) (s : Session) :
    outcome (m >>= f) ctx s = match outcome m ctx s with
      | (.ok (a, ctx'), s') => outcome (f a) ctx' s'
      | (.error e, s') => (.error e, s') := by
  have h : outcome (m >>= f) ctx s = (ExceptT.bindCont
      (fun x : α × Context => f x.1 x.2) (outcome m ctx s).1) (outcome m ctx s).2 := rfl
  rw [h]
  rcases outcome m ctx s with ⟨_ | ⟨a, ctx'⟩, s'⟩ <;> rfl

/-- Steps with the same outcome are followed alike. -/
theorem outcome_bind_congr {m m' : CompileM α} {ctx ctx' : Context} {s s' : Session}
    (h : outcome m ctx s = outcome m' ctx' s') (k : α → CompileM β) :
    outcome (m >>= k) ctx s = outcome (m' >>= k) ctx' s' := by
  rw [outcome_bind, outcome_bind, h]

/-- What follows may be exchanged for what comes to the same wherever the step leads. -/
theorem outcome_bind_congr_right {m : CompileM α} {k k' : α → CompileM β} {ctx : Context}
    {s : Session} (h : ∀ a ctx' s', outcome m ctx s = (.ok (a, ctx'), s') →
      outcome (k a) ctx' s' = outcome (k' a) ctx' s') :
    outcome (m >>= k) ctx s = outcome (m >>= k') ctx s := by
  rw [outcome_bind, outcome_bind]
  generalize hm : outcome m ctx s = r at h
  obtain ⟨_ | ⟨a, ctx'⟩, s'⟩ := r
  · rfl
  · exact h a ctx' s' rfl

@[simp] theorem pure_eq_ok {a b : α} :
    outcome (pure a) ctx s = (.ok (b, ctx'), s') ↔ a = b ∧ ctx = ctx' ∧ s = s' := by
  simp [outcome_pure, and_assoc]

@[simp] theorem throw_eq_ok {e : CompileError} {a : α} :
    outcome (throw e : CompileM α) ctx s = (.ok (a, ctx'), s') ↔ False := by
  simp [outcome_throw]

/-- A sequence succeeds if its first step does and the rest does from there. -/
@[simp] theorem bind_eq_ok {m : CompileM α} {f : α → CompileM β} {b : β} :
    outcome (m >>= f) ctx s = (.ok (b, ctx'), s') ↔
      ∃ a ctx₁ s₁, outcome m ctx s = (.ok (a, ctx₁), s₁) ∧
        outcome (f a) ctx₁ s₁ = (.ok (b, ctx'), s') := by
  rw [outcome_bind]
  rcases outcome m ctx s with ⟨_ | ⟨a, ctx₁⟩, s₁⟩
  · simp
  · constructor
    · intro h
      exact ⟨a, ctx₁, s₁, rfl, h⟩
    · rintro ⟨_, _, _, he, h⟩
      cases he
      exact h

/-! ## Primitive steps -/

theorem outcome_get (ctx : Context) (s : Session) :
    outcome (get : CompileM Context) ctx s = (.ok (ctx, ctx), s) := rfl

theorem outcome_build (b : Build α) (ctx : Context) (s : Session) :
    outcome (build b) ctx s = (.ok ((b s.supply).1, ctx), { s with supply := (b s.supply).2 }) :=
  rfl

theorem outcome_report (event : Event) (ctx : Context) (s : Session) :
    outcome (report event) ctx s = (.ok ((), ctx), { s with trace := s.trace.push event }) := rfl

theorem outcome_referenceOf (id : NodeId) (ctx : Context) (s : Session) :
    outcome (referenceOf id) ctx s = (.ok (ctx.referenceOf id, ctx), s) := rfl

/-- A registered node comes to its reference, any other to its own form. -/
theorem outcome_registeredOr (id : NodeId) (own : CompileM Sql.Scalar) (ctx : Context)
    (s : Session) :
    outcome (registeredOr id own) ctx s = match ctx.referenceOf id with
      | some ref => (.ok (.reference ref.qualifier ref.field, ctx), s)
      | none => outcome own ctx s := by
  unfold registeredOr
  rw [outcome_bind, outcome_referenceOf]
  cases ctx.referenceOf id <;> rfl

theorem outcome_registerAll (qualifier : String) (fields : List (NodeId × String)) (ctx : Context)
    (s : Session) :
    outcome (registerAll qualifier fields) ctx s =
      (.ok ((), ctx.registerAll qualifier fields), s) := rfl

theorem outcome_takeAlias (ctx : Context) (s : Session) :
    outcome takeAlias ctx s = (.ok (Context.aliasName ctx.nextAlias, ctx.takeAlias), s) := rfl

theorem outcome_bindValue (v : Value) (ctx : Context) (s : Session) :
    outcome (bindValue v) ctx s = (.ok (ctx.params.length, ctx.bind v), s) := rfl

/-- A step further in sees the greater level, and the level is put back behind it. -/
theorem outcome_indented (levels : Nat) (m : CompileM α) (ctx : Context) (s : Session) :
    outcome (indented levels m) ctx s =
      match outcome m { ctx with indent := ctx.indent + levels } s with
      | (.ok (a, ctx'), s') => (.ok (a, { ctx' with indent := ctx.indent }), s')
      | (.error e, s') => (.error e, s') := by
  unfold indented
  simp only [outcome_bind, outcome_get]
  rfl

/-- Reports change nothing but the record. -/
theorem outcome_reportPasses (n : Nat) (passes : List Query.Pass) (ctx : Context) (s : Session) :
    ∃ trace, outcome (reportPasses n passes) ctx s =
      (.ok ((), ctx), { s with trace := trace }) := by
  induction passes generalizing n s with
  | nil => exact ⟨s.trace, rfl⟩
  | cons pass passes ih =>
      obtain ⟨trace, h⟩ :=
        ih (n + 1) { s with trace := s.trace.push (.pass n pass.changed pass.result.shape) }
      refine ⟨trace, ?_⟩
      rw [reportPasses, outcome_bind, outcome_report]
      exact h

theorem outcome_normalize (q : Query) (ctx : Context) (s : Session) :
    ∃ trace, outcome (normalize q) ctx s = (.ok (q.normalize, ctx), { s with trace := trace }) := by
  obtain ⟨trace, h⟩ := outcome_reportPasses 1 q.passes ctx s
  refine ⟨trace, ?_⟩
  rw [normalize, outcome_bind, h]
  rfl

@[simp] theorem get_eq_ok {c : Context} :
    outcome get ctx s = (.ok (c, ctx'), s') ↔ ctx = c ∧ ctx = ctx' ∧ s = s' := by
  simp [outcome_get, and_assoc]

@[simp] theorem build_eq_ok {b : Build α} {a : α} :
    outcome (build b) ctx s = (.ok (a, ctx'), s') ↔
      (b s.supply).1 = a ∧ ctx = ctx' ∧ { s with supply := (b s.supply).2 } = s' := by
  simp [outcome_build, and_assoc]

@[simp] theorem report_eq_ok {event : Event} {u : Unit} :
    outcome (report event) ctx s = (.ok (u, ctx'), s') ↔
      ctx = ctx' ∧ { s with trace := s.trace.push event } = s' := by
  simp [outcome_report]

@[simp] theorem referenceOf_eq_ok {id : NodeId} {r : Option Reference} :
    outcome (referenceOf id) ctx s = (.ok (r, ctx'), s') ↔
      ctx.referenceOf id = r ∧ ctx = ctx' ∧ s = s' := by
  simp [outcome_referenceOf, and_assoc]

@[simp] theorem registerAll_eq_ok {qualifier : String} {fields : List (NodeId × String)}
    {u : Unit} :
    outcome (registerAll qualifier fields) ctx s = (.ok (u, ctx'), s') ↔
      ctx.registerAll qualifier fields = ctx' ∧ s = s' := by
  simp [outcome_registerAll]

@[simp] theorem takeAlias_eq_ok {label : String} :
    outcome takeAlias ctx s = (.ok (label, ctx'), s') ↔
      Context.aliasName ctx.nextAlias = label ∧ ctx.takeAlias = ctx' ∧ s = s' := by
  simp [outcome_takeAlias, and_assoc]

@[simp] theorem bindValue_eq_ok {v : Value} {n : Nat} :
    outcome (bindValue v) ctx s = (.ok (n, ctx'), s') ↔
      ctx.params.length = n ∧ ctx.bind v = ctx' ∧ s = s' := by
  simp [outcome_bindValue, and_assoc]

@[simp] theorem indented_eq_ok {levels : Nat} {m : CompileM α} {a : α} :
    outcome (indented levels m) ctx s = (.ok (a, ctx'), s') ↔
      ∃ ctx₁, outcome m { ctx with indent := ctx.indent + levels } s = (.ok (a, ctx₁), s') ∧
        { ctx₁ with indent := ctx.indent } = ctx' := by
  rw [outcome_indented]
  rcases outcome m { ctx with indent := ctx.indent + levels } s with ⟨_ | ⟨b, ctx₁⟩, s₁⟩
  · simp
  · constructor
    · intro h
      cases h
      exact ⟨ctx₁, rfl, rfl⟩
    · rintro ⟨_, he, h⟩
      cases he
      cases h
      rfl

/-! ## Whole compilations -/

theorem start_fst (d : Dialect) (m : CompileM α) (s : Session) :
    (m.start d s).1 = (outcome m (.empty d) s).1.map (·.1) := by
  have h : (m.start d s).1 = (match outcome m (.empty d) s with
      | (.ok (a, _), s') => ((.ok a, s') : Except CompileError α × Session)
      | (.error e, s') => (.error e, s')).1 := rfl
  rw [h]
  rcases outcome m (.empty d) s with ⟨_ | ⟨a, ctx⟩, t⟩ <;> rfl

/-- A whole compilation succeeds exactly if its steps do from the empty context. -/
theorem start_eq_ok {d : Dialect} {m : CompileM α} {a : α} :
    (m.start d s).1 = .ok a ↔ ∃ ctx' s', outcome m (.empty d) s = (.ok (a, ctx'), s') := by
  rw [start_fst]
  rcases outcome m (.empty d) s with ⟨_ | ⟨b, ctx₁⟩, s₁⟩
  · simp [Except.map]
  · simp [Except.map, and_assoc]

end QueryCompiler.CompileM

namespace QueryCompiler

open CompileM

/-- Whatever its kind, an expression is read from its source if it is registered. -/
theorem Expr.exists_own (sub : SubqueryCompiler) (e : Expr) :
    ∃ own, e.compile sub = registeredOr e.id own := by
  cases e with
  | inList id needle values => cases values <;> exact ⟨_, rfl⟩
  | _ => exact ⟨_, rfl⟩

variable {d : Dialect} {scope : Scope} {session : Session} {c : CompiledQuery}

/-- A compiled query is the text of the statement that its normal form is compiled to, with the
placeholders bound on the way. -/
theorem compileQuery_eq_ok {q : Query} (h : (compileQuery d scope q session).1 = .ok c) :
    ∃ compiled ctx s s',
      outcome (q.normalize.compileIn scope) (.empty d) s = (.ok (compiled, ctx), s') ∧
      s.supply = session.supply ∧ c = ⟨compiled.select.render d 0, ctx.params⟩ := by
  obtain ⟨ctx, s', h⟩ := start_eq_ok.1 h
  unfold Query.compileText at h
  simp only [bind_eq_ok, get_eq_ok, report_eq_ok, pure_eq_ok] at h
  obtain ⟨_, _, _, ⟨rfl, rfl, rfl⟩, _, _, _, ⟨rfl, rfl⟩, normal, ctx₁, s₁, hnormal, compiled, ctx₂,
    s₂, hcompiled, _, _, _, ⟨rfl, rfl, rfl⟩, _, _, _, ⟨rfl, rfl⟩, rfl, rfl, rfl⟩ := h
  obtain ⟨trace, hn⟩ := outcome_normalize q (.empty d)
    { session with trace := session.trace.push (.enteredQuery d) }
  obtain ⟨⟨⟩, rfl⟩ := Prod.mk.inj (hn.symm.trans hnormal)
  exact ⟨compiled, _, _, _, hcompiled, rfl, rfl⟩

/-- The aggregate of a query is compiled as a query. -/
theorem compileScalar_eq_ok {q : ScalarQuery} (h : (compileScalar d scope q session).1 = .ok c) :
    ∃ s : Session, s.supply = session.supply ∧ (compileQuery d scope q.toQuery s).1 = .ok c := by
  obtain ⟨ctx, s', h⟩ := start_eq_ok.1 h
  unfold ScalarQuery.compileText at h
  simp only [bind_eq_ok, get_eq_ok, report_eq_ok] at h
  obtain ⟨_, _, _, ⟨rfl, rfl, rfl⟩, _, _, _, ⟨rfl, rfl⟩, htext⟩ := h
  refine ⟨_, ?_, start_eq_ok.2 ⟨ctx, s', htext⟩⟩
  rfl

/-- A compiled statement is the text of the change it is compiled to, with the placeholders bound on
the way. -/
theorem compileStatement_eq_ok {st : Statement}
    (h : (compileStatement d scope st session).1 = .ok c) :
    ∃ change ctx s s', outcome (st.compileIn scope) (.empty d) s = (.ok (change, ctx), s') ∧
      s.supply = session.supply ∧ c = ⟨change.render d, ctx.params⟩ := by
  obtain ⟨ctx, s', h⟩ := start_eq_ok.1 h
  unfold Statement.compileText at h
  simp only [bind_eq_ok, get_eq_ok, report_eq_ok, pure_eq_ok] at h
  obtain ⟨_, _, _, ⟨rfl, rfl, rfl⟩, _, _, _, ⟨rfl, rfl⟩, change, ctx₁, s₁, hchange, _, _, _,
    ⟨rfl, rfl, rfl⟩, _, _, _, ⟨rfl, rfl⟩, rfl, rfl, rfl⟩ := h
  exact ⟨change, _, _, _, hchange, rfl, rfl⟩

end QueryCompiler
