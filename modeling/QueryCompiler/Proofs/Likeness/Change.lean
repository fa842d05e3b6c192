import QueryCompiler.Compiler
import QueryCompiler.Proofs.Likeness.Compile

/-! # `QueryCompiler.Proofs.Likeness.Change` — compiling alike statements, and the entry points

Statements that change rows run in step as queries do.  At the entry points both runs start from the
empty context, so what remains of the likeness of contexts is the likeness of placeholders: the text
is the text of one tree, written for the dialect of each run.
-/

namespace QueryCompiler

variable {M : Matching} {d d' : Dialect}

open CompileM (InStep)

/-! ## Statements -/

/-- What a column is set to agrees up to matched identities and matched literals. -/
inductive Assigned.Alike (M : Matching) : Assigned → Assigned → Prop
  | computed {t t'} : ExprTerm.Alike M.values t t' → Assigned.Alike M (.computed t) (.computed t')
  | fixed {e e'} : Expr.Alike M e e' → Assigned.Alike M (.fixed e) (.fixed e')

def AssignmentAlike (M : Matching) (a a' : String × Assigned) : Prop :=
  a.1 = a'.1 ∧ a.2.Alike M a'.2

def InsertedAlike (M : Matching) (a a' : String × Expr) : Prop := a.1 = a'.1 ∧ a.2.Alike M a'.2

/-- The statements agree up to matched identities and matched literals. -/
inductive Statement.Alike (M : Matching) : Statement → Statement → Prop
  | delete {table filters filters'} : ExprTerm.AlikeAll M.values filters filters' →
      Statement.Alike M (.delete ⟨table, filters⟩) (.delete ⟨table, filters'⟩)
  | update {table assignments assignments' filters filters'} :
      List.Forall₂ (AssignmentAlike M) assignments assignments' →
      ExprTerm.AlikeAll M.values filters filters' →
      Statement.Alike M (.update ⟨table, assignments, filters⟩)
        (.update ⟨table, assignments', filters'⟩)
  | insert {table values values'} : List.Forall₂ (InsertedAlike M) values values' →
      Statement.Alike M (.insert ⟨table, values⟩) (.insert ⟨table, values'⟩)

theorem compileTarget_inStep (t : Table) :
    InStep M d d' (Row.Alike M) (compileTarget t) (compileTarget t) := by
  refine (InStep.build t.instantiate_inStep).bind fun hc => ?_
  exact (InStep.registerAll t.name (hc.zip_ids t.columns)).bind fun _ => .pure (.table hc)

theorem foldl_and_alike : ∀ {ts ts' : List ExprTerm} {t t' : ExprTerm}, t.Alike M.values t' →
    ExprTerm.AlikeAll M.values ts ts' →
      (ts.foldl (.binary .and) t).Alike M.values (ts'.foldl (.binary .and) t')
  | _, _, _, _, ht, .nil => ht
  | _, _, _, _, ht, .cons h hs => by
      rw [List.foldl_cons, List.foldl_cons]
      exact foldl_and_alike (.binary ht h) hs

theorem conjunction_alike {ts ts' : List ExprTerm} (h : ExprTerm.AlikeAll M.values ts ts') :
    ExprTerm.AlikeOption M.values (conjunction ts) (conjunction ts') := by
  cases h with
  | nil => exact .none
  | cons h hs => exact .some (foldl_and_alike h hs)

theorem requireColumn_inStep (t : Table) (column : String) :
    InStep M d d' (fun _ _ => True) (requireColumn t column) (requireColumn t column) := by
  unfold requireColumn
  split
  · exact .pure trivial
  · exact .throw _

section

variable {sub sub' : SubqueryCompiler} {scope scope' : Scope}
  (hsub : SubqueryCompiler.InStep M d d' sub sub') (hs : Scope.Alike M scope scope')

include hsub hs

theorem compileAssignments_inStep (t : Table) {row row' : Row} (hr : row.Alike M row')
    {as as' : List (String × Assigned)} (h : List.Forall₂ (AssignmentAlike M) as as') :
    InStep M d d' Eq (compileAssignments sub scope t row as)
      (compileAssignments sub' scope' t row' as') := by
  induction h with
  | nil => exact .pure rfl
  | @cons a a' _ _ ha _ ih =>
      obtain ⟨column, value⟩ := a
      obtain ⟨column', value'⟩ := a'
      obtain ⟨rfl : column = column', hv⟩ := ha
      have hb : Build.InStep M (Expr.Alike M) (value.build scope row)
          (value'.build scope' row') := by
        cases hv with
        | computed h => exact h.eval (.cons (.clause hr) hs)
        | fixed h => exact .pure h
      refine (requireColumn_inStep t column).bind fun _ => ?_
      refine (InStep.build hb).bind fun he => ?_
      exact (he.compile hsub).bind fun he => ih.bind fun hes => .pure (by rw [he, hes])

theorem Statement.Alike.compile {st st' : Statement} (h : st.Alike M st') :
    InStep M d d' Eq (st.compile sub scope) (st'.compile sub' scope') := by
  cases h with
  | delete hf =>
      refine (compileTarget_inStep _).bind fun hr => ?_
      exact (compileCondition_inStep hsub hs (conjunction_alike hf) hr).bind fun hc =>
        .pure (by rw [hc])
  | @update table as as' fs fs' ha hf =>
      show InStep M d d' Eq (Update.compile sub scope ⟨table, as, fs⟩)
        (Update.compile sub' scope' ⟨table, as', fs'⟩)
      unfold Update.compile
      dsimp only
      have hempty : as.isEmpty = as'.isEmpty := by cases ha <;> rfl
      rw [hempty]
      split
      · exact .throw _
      · refine (compileTarget_inStep table).bind fun hr => ?_
        refine (compileAssignments_inStep hsub hs table hr ha).bind fun ha => ?_
        exact (compileCondition_inStep hsub hs (conjunction_alike hf) hr).bind fun hc =>
          .pure (by rw [ha, hc])
  | @insert table vs vs' hv =>
      show InStep M d d' Eq (Insert.compile sub scope ⟨table, vs⟩)
        (Insert.compile sub' scope' ⟨table, vs'⟩)
      unfold Insert.compile
      dsimp only
      have hempty : vs.isEmpty = vs'.isEmpty := by cases hv <;> rfl
      rw [hempty]
      split
      · exact .throw _
      · have ha : List.Forall₂ (AssignmentAlike M)
            (vs.map fun v => (v.1, Assigned.fixed v.2))
            (vs'.map fun v => (v.1, Assigned.fixed v.2)) := by
          rw [List.forall₂_map_left_iff, List.forall₂_map_right_iff]
          exact hv.imp fun _ _ h => ⟨h.1, .fixed h.2⟩
        exact (compileAssignments_inStep hsub hs table .absent ha).bind fun ha =>
          .pure (by rw [ha])

end

theorem Assigned.Alike.nesting_eq {scope scope' : Scope} (hs : Scope.Alike M scope scope')
    {a a' : Assigned} (h : a.Alike M a') : a.nesting scope = a'.nesting scope' := by
  cases h with
  | computed h => simp only [Assigned.nesting, Scope.nesting, h.subqueries_eq, hs.nesting_eq]
  | fixed h => exact h.nesting_eq

theorem Statement.Alike.nesting_eq {scope scope' : Scope} (hs : Scope.Alike M scope scope')
    {st st' : Statement} (h : st.Alike M st') : st.nesting scope = st'.nesting scope' := by
  cases h with
  | delete hf => simp only [Statement.nesting, Scope.nesting, hf.subqueries_eq, hs.nesting_eq]
  | update ha hf =>
      simp only [Statement.nesting, Scope.nesting, hf.subqueries_eq, hs.nesting_eq]
      congr 1
      induction ha with
      | nil => rfl
      | cons h _ ih => simp only [Assigned.nestingAll, h.2.nesting_eq hs, ih]
  | insert hv =>
      simp only [Statement.nesting]
      induction hv with
      | nil => rfl
      | cons h _ ih => simp only [List.map_cons, Expr.nestingAll, h.2.nesting_eq, ih]

theorem Statement.Alike.compileIn {scope scope' : Scope} (hs : Scope.Alike M scope scope')
    {st st' : Statement} (h : st.Alike M st') :
    InStep M d d' Eq (st.compileIn scope) (st'.compileIn scope') := by
  unfold Statement.compileIn
  rw [h.nesting_eq hs]
  exact h.compile (compileWithin_inStep M d d' _) hs

/-! ## Entry points -/

/-- Both results are the text of one tree, each in its dialect, with alike placeholders. -/
def CompiledQuery.Alike (M : Matching) (d d' : Dialect) {τ : Type} (render : Dialect → τ → String)
    (c c' : CompiledQuery) : Prop :=
  (∃ tree, c.sql = render d tree ∧ c'.sql = render d' tree) ∧
    List.Forall₂ (ParamAlike M d d') c.params c'.params

/-- In one dialect, and with equal values, alike results are equal. -/
theorem CompiledQuery.Alike.eq (hM : ∀ {v w}, M.values v w → v = w) {τ : Type}
    {render : Dialect → τ → String} {c c' : CompiledQuery}
    (h : CompiledQuery.Alike M d d render c c') : c = c' := by
  obtain ⟨⟨tree, hsql, hsql'⟩, hparams⟩ := h
  have hp : c.params = c'.params := by
    refine List.forall₂_eq_eq_eq ▸ hparams.imp ?_
    rintro p p' ⟨i, v, w, hv, -, rfl, rfl⟩
    rw [hM hv]
  cases c
  cases c'
  exact congrArg₂ CompiledQuery.mk (hsql.trans hsql'.symm) hp

/-- Both are results that are related, or failures for the same reason. -/
inductive ResultAlike (M : Matching) {α β : Type} (A : α → β → Prop) :
    Except CompileError α → Except CompileError β → Prop
  | ok {a a'} : A a a' → ResultAlike M A (.ok a) (.ok a')
  | error {e e'} : CompileError.Alike M e e' → ResultAlike M A (.error e) (.error e')

theorem Context.Alike.empty (M : Matching) (d d' : Dialect) :
    Context.Alike M d d' (.empty d) (.empty d') :=
  ⟨rfl, rfl, rfl, .nil, .nil⟩

theorem CompileM.InStep.start {α β : Type} {A : α → β → Prop} {m : CompileM α} {m' : CompileM β}
    (h : InStep M d d' A m m') {s s' : Session} (hs : s.supply.Alike M s'.supply) :
    ResultAlike M A (m.start d s).1 (m'.start d' s').1 := by
  rw [CompileM.start_fst, CompileM.start_fst]
  have ho := h _ _ s s' (.empty M d d') hs
  revert ho
  generalize CompileM.outcome m (.empty d) s = r
  generalize CompileM.outcome m' (.empty d') s' = r'
  intro ho
  cases ho with
  | ok ha _ _ => exact .ok ha
  | error he _ => exact .error he

theorem Query.compileText_inStep {scope scope' : Scope} (hs : Scope.Alike M scope scope')
    {q q' : Query} (h : q.normalize.Alike M.values q'.normalize) :
    InStep M d d' (CompiledQuery.Alike M d d' fun d (select : Sql.Select) => select.render d 0)
      (q.compileText scope) (q'.compileText scope') := by
  refine InStep.withContext fun hc => ?_
  rw [hc.dialect_eq, hc.dialect_eq']
  refine (InStep.report _ _).bind fun _ => ?_
  refine (InStep.normalize h).bind fun hn => ?_
  refine (hn.compileIn hs).bind fun {c c'} hcompiled => ?_
  refine InStep.withContext fun hc => (InStep.report _ _).bind fun _ => ?_
  exact .pure ⟨⟨c.select, rfl, by rw [hcompiled.select_eq]⟩, hc.params⟩

theorem Query.Alike.compileText {scope scope' : Scope} (hs : Scope.Alike M scope scope')
    {q q' : Query} (h : q.Alike M.values q') :
    InStep M d d' (CompiledQuery.Alike M d d' fun d (select : Sql.Select) => select.render d 0)
      (q.compileText scope) (q'.compileText scope') :=
  Query.compileText_inStep hs h.normalize

theorem ScalarQuery.compileScalar_alike {scope scope' : Scope} (hs : Scope.Alike M scope scope')
    {q q' : ScalarQuery} (h : q.toQuery.Alike M.values q'.toQuery) {s s' : Session}
    (hsupply : s.supply.Alike M s'.supply) :
    ResultAlike M (CompiledQuery.Alike M d d' fun d (select : Sql.Select) => select.render d 0)
      (compileScalar d scope q s).1 (compileScalar d' scope' q' s').1 := by
  refine InStep.start (InStep.withContext fun _ => ?_) hsupply
  exact (InStep.report _ _).bind fun _ => h.compileText hs

theorem Statement.Alike.compileText {scope scope' : Scope} (hs : Scope.Alike M scope scope')
    {st st' : Statement} (h : st.Alike M st') :
    InStep M d d' (CompiledQuery.Alike M d d' fun d (change : Sql.Change) => change.render d)
      (st.compileText scope) (st'.compileText scope') := by
  refine InStep.withContext fun hc => ?_
  rw [hc.dialect_eq, hc.dialect_eq']
  refine (InStep.report _ _).bind fun _ => ?_
  refine (h.compileIn hs).bind fun {change change'} hchange => ?_
  subst hchange
  exact InStep.withContext fun hc =>
    (InStep.report _ _).bind fun _ => .pure ⟨⟨change, rfl, rfl⟩, hc.params⟩

end QueryCompiler
