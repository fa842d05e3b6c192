import QueryCompiler.Proofs.Isolation.Scripts
import QueryCompiler.Proofs.Lookups.Compile

/-! # `QueryCompiler.Proofs.Threading` — a context is handed on

A context goes through the compiler of expressions and the compiler of statements and comes back,
from further in for each derived table and each subquery.  What comes back is what went in, with
additions.

    dialect, level        the same
    placeholders          those from before, in front of the new ones
    aliases               as many given out as before, or more
    registered nodes      all from before, and new ones

All of this but the level is growth, and holds of whatever a context can evolve to.  The level goes up
on the way, and is the same at the end because whoever takes it up puts it back; this cannot be seen
from the context, so it is read off the script of the step.

The second line has a condition.  A value is bound to the name that the number of placeholders gives,
and if this name is taken already, by a placeholder that is out of order, the value in its place is
lost.  In no compilation is there such a context, at whatever moment and whether it succeeds or not.
-/

namespace QueryCompiler

open CompileM

variable {T : Table → Prop} {α : Type} {m : CompileM α} {μ ν κ : Moment} {ctx ctx' : Context}

theorem Context.indent_registerAll (qualifier : String) : ∀ (fields : List (NodeId × String))
    (ctx : Context), (ctx.registerAll qualifier fields).indent = ctx.indent
  | [], _ => rfl
  | (_, _) :: fields, _ => indent_registerAll qualifier fields _

/-! ## What comes back -/

/-- The second context is the first, handed on: at the same level, and with nothing lost. -/
structure Context.Threads (ctx ctx' : Context) : Prop where
  dialect_eq : ctx'.dialect = ctx.dialect
  indent_eq : ctx'.indent = ctx.indent
  params_prefix : ctx.Ordered ctx.dialect → ctx.params <+: ctx'.params
  nextAlias_le : ctx.nextAlias ≤ ctx'.nextAlias
  registered : ∀ id, ctx.referenceOf id ≠ none → ctx'.referenceOf id ≠ none

/-- A context that has evolved is handed on if it is back at its level. -/
theorem Context.Evolves.threads (h : ctx.Evolves ctx') (hlevel : ctx'.indent = ctx.indent) :
    ctx.Threads ctx' where
  dialect_eq := h.dialect_eq
  indent_eq := hlevel
  params_prefix hordered := (hordered.evolves h).2
  nextAlias_le := h.nextAlias_le
  registered id hid := by
    rw [ne_eq, Context.referenceOf_eq_none, not_not] at hid ⊢
    exact hid.evolve h

/-! ## Steps -/

namespace Script

/-- Whatever is done, the context evolves, and is back at its level when it is over. -/
theorem evolves_level (script : Script T m) {a : α} (h : m.Takes μ a ν) :
    μ.context.Evolves ν.context ∧ ν.context.indent = μ.context.indent := by
  induction script generalizing μ ν with
  | pure =>
      obtain ⟨-, rfl⟩ := takes_pure.1 h
      exact ⟨.refl, rfl⟩
  | throw => exact (takes_throw.1 h).elim
  | get =>
      obtain ⟨-, rfl⟩ := takes_get.1 h
      exact ⟨.refl, rfl⟩
  | build =>
      obtain ⟨-, hctx, -⟩ := takes_build.1 h
      exact hctx ▸ ⟨.refl, rfl⟩
  | report =>
      obtain ⟨hctx, -⟩ := report_eq_ok.1 h
      exact hctx ▸ ⟨.refl, rfl⟩
  | takeAlias =>
      obtain ⟨-, hctx, -⟩ := takeAlias_eq_ok.1 h
      exact hctx ▸ ⟨.takeAlias .refl, rfl⟩
  | bindValue value =>
      obtain ⟨-, rfl⟩ := takes_bindValue.1 h
      exact ⟨.bind value .refl, rfl⟩
  | registerAll qualifier fields =>
      obtain ⟨hctx, -⟩ := registerAll_eq_ok.1 h
      rw [← hctx]
      exact ⟨.registerAll qualifier fields _, Context.indent_registerAll ..⟩
  | indented levels inner ih =>
      -- what happens further in does not matter for the level, since it is put back from outside
      obtain ⟨ctx, hm, hν⟩ := indented_eq_ok.1 h
      have hinner := (ih (μ := μ.deeper levels) (ν := ⟨ctx, ν.session⟩) hm).1
      rw [← hν]
      exact ⟨.indent _ (Context.Evolves.trans (.indent _ .refl) hinner), rfl⟩
  | bind first rest ihFirst ihRest =>
      obtain ⟨a, κ, hfirst, hrest⟩ := takes_bind.1 h
      obtain ⟨hκ, hlevel⟩ := ihFirst hfirst
      obtain ⟨hν, hlevel'⟩ := ihRest a hrest
      exact ⟨hκ.trans hν, hlevel'.trans hlevel⟩
  | @ite _ _ c _ _ _ yes no ihYes ihNo =>
      by_cases hc : c
      · rw [if_pos hc] at h
        exact ihYes h
      · rw [if_neg hc] at h
        exact ihNo h
  | same eq script ih => exact ih (eq ▸ h)
  | untargeted script ih => exact ih h
  | table t steps ih => exact ih h
  | target t allowed steps ih => exact ih h

theorem threads (script : Script T m) {a : α} (h : m.Takes μ a ν) :
    μ.context.Threads ν.context := by
  obtain ⟨hν, hlevel⟩ := script.evolves_level h
  exact hν.threads hlevel

/-- The context evolves to that of every moment that is passed. -/
theorem evolves_of_mem_moments {script : Script T m} (h : κ ∈ script.moments μ) :
    μ.context.Evolves κ.context := by
  refine rel_of_mem_moments (R := fun μ κ => μ.context.Evolves κ.context) (fun _ => .refl) .trans
    (fun μ levels => ?_) (fun script _ _ _ ht => (script.evolves_level ht).1) h
  exact .indent _ .refl

end Script

/-! ## Compilations -/

/-- Compiling an expression or a query hands the context on.  And at every moment of every compilation
from the empty context, of a query, an aggregate or a statement that changes rows, the placeholders are
numbered in order, so that those bound by then stay. -/
theorem compile_threads (depth : Nat) (ctx : Context) (s : Session) :
    (∀ (e : Expr) {sql : Sql.Scalar} {ctx' : Context} {s' : Session},
      outcome (e.compile (compileWithin depth)) ctx s = (.ok (sql, ctx'), s') → ctx.Threads ctx') ∧
    (∀ (scope : Scope) (q : Query) {compiled : Compiled} {ctx' : Context} {s' : Session},
      outcome (q.compile (compileWithin depth) scope) ctx s = (.ok (compiled, ctx'), s') →
        ctx.Threads ctx') ∧
    ∀ (d : Dialect) (scope : Scope),
      (∀ q : Query, ∀ κ ∈ (q.textScript scope : Script (fun _ => False) _).moments ⟨.empty d, s⟩,
        κ.context.Ordered d) ∧
      (∀ q : ScalarQuery,
        ∀ κ ∈ (q.textScript scope : Script (fun _ => False) _).moments ⟨.empty d, s⟩,
          κ.context.Ordered d) ∧
      ∀ st : Statement,
        ∀ κ ∈ (st.textScript scope rfl : Script (· = st.table) _).moments ⟨.empty d, s⟩,
          κ.context.Ordered d := by
  have hsub : ∀ q scope, Script (fun _ => False) (compileWithin depth q scope) :=
    compileWithin.script depth
  refine ⟨?_, ?_, ?_⟩
  · intro e sql ctx' s' h
    exact (e.script hsub).threads (μ := ⟨ctx, s⟩) (ν := ⟨ctx', s'⟩) h
  · intro scope q compiled ctx' s' h
    exact (q.script hsub scope).threads (μ := ⟨ctx, s⟩) (ν := ⟨ctx', s'⟩) h
  · intro d scope
    have hordered : ∀ {κ : Moment}, (Context.empty d).Evolves κ.context → κ.context.Ordered d :=
      fun h => ((Context.Ordered.empty d).evolves h).1
    refine ⟨?_, ?_, ?_⟩
    · intro q κ hκ
      exact hordered (Script.evolves_of_mem_moments hκ)
    · intro q κ hκ
      exact hordered (Script.evolves_of_mem_moments hκ)
    · intro st κ hκ
      exact hordered (Script.evolves_of_mem_moments hκ)

/-- The condition cannot be left out: behind a placeholder that is out of order the next value takes
its place. -/
example : (Context.bind { dialect := .sqlite, params := [(":p1", .int 5)] } (.int 7)).params =
    [(":p1", .int 7)] := by decide

/-- Where orders are read one level in, behind one value. -/
private def amongOrders : Context where
  dialect := .sqlite
  indent := 1
  aliases := [(0, ⟨"a0", "UserId"⟩)]
  nextAlias := 1
  params := [(":p0", .int 3)]

/-- Users of age, kept apart, and sorted behind that. -/
private def adults : Query :=
  .select (.orderBy (.derived (.filter (.table ⟨"Users", ["Id", "Age"]⟩)
    (.compare .ge (.named .row "Age") (.literal (.int 18)))))
      [.mk .ascending (.named .row "Age")]) [.exprs [.named .row "Id"]] none

/-- The order at hand is one of an adult's, or of nobody's. -/
private def ofAdult : Expr :=
  .binary 1 .or (.inQuery 2 (.column 0 "Orders" "UserId") adults [])
    (.compare 3 .eq (.column 0 "Orders" "UserId") (.literal 4 (.int 0)))

private def fromFive : Session := { supply := .counting 5 }

/-- A subquery with a derived table in it, three levels further in, and a value that is bound behind
it. -/
theorem compile_threads_ofAdult :
    amongOrders.Ordered amongOrders.dialect ∧
    (∃ sql ctx' s', outcome (ofAdult.compile (compileWithin 1)) amongOrders fromFive =
        (.ok (sql, ctx'), s') ∧ amongOrders.Threads ctx' ∧ ctx'.indent = 1 ∧ ctx'.nextAlias = 3 ∧
      ctx'.params = [(":p0", .int 3), (":p1", .int 18), (":p2", .int 0)]) ∧
    (∃ compiled ctx' s', outcome (adults.compile (compileWithin 0) []) amongOrders fromFive =
        (.ok (compiled, ctx'), s') ∧ amongOrders.Threads ctx') ∧
    ∀ κ ∈ (adults.textScript [] : Script (fun _ => False) _).moments ⟨.empty .sqlite, fromFive⟩,
      κ.context.Ordered .sqlite := by
  have hordered : amongOrders.Ordered amongOrders.dialect := ⟨rfl, by decide⟩
  have hexpr : ((outcome (ofAdult.compile (compileWithin 1)) amongOrders fromFive).1.toOption.map
      fun r => (r.2.indent, r.2.nextAlias, r.2.params)) =
        some (1, 3, [(":p0", .int 3), (":p1", .int 18), (":p2", .int 0)]) := by decide +kernel
  have hquery : (outcome (adults.compile (compileWithin 0) []) amongOrders fromFive).1.toOption.isSome
      = true := by decide +kernel
  obtain ⟨hthreads, -, -⟩ := compile_threads 1 amongOrders fromFive
  obtain ⟨-, hthreads', hmoments⟩ := compile_threads 0 amongOrders fromFive
  refine ⟨hordered, ?_, ?_, (hmoments .sqlite []).1 adults⟩
  · rcases hrun : outcome (ofAdult.compile (compileWithin 1)) amongOrders fromFive with
      ⟨_ | ⟨sql, ctx'⟩, s'⟩
    · rw [hrun] at hexpr
      cases hexpr
    · rw [hrun] at hexpr
      obtain ⟨hindent, hnext, hparams⟩ := by simpa using Option.some.inj hexpr
      exact ⟨sql, ctx', s', rfl, hthreads ofAdult hrun, hindent, hnext, hparams⟩
  · rcases hrun : outcome (adults.compile (compileWithin 0) []) amongOrders fromFive with
      ⟨_ | ⟨compiled, ctx'⟩, s'⟩
    · rw [hrun] at hquery
      cases hquery
    · exact ⟨compiled, ctx', s', rfl, hthreads' [] adults hrun⟩

end QueryCompiler
