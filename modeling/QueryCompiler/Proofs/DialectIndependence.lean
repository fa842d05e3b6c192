import QueryCompiler.Proofs.Likeness.Identities
import QueryCompiler.Proofs.Scoping.References

/-! # `QueryCompiler.Proofs.DialectIndependence` — dialects differ at their hooks only

A dialect has three hooks: the mark in front of a placeholder, the value bound for a truth value and
the spelling of concatenation.  Nothing else of a compilation asks for the dialect.  So a query, or
a statement that changes rows, is refused in every dialect for the same reason, or compiled in every
dialect, with the same output columns and as many placeholders; and what two dialects write and
bind differs only where their hooks do.

The runs need not share the nodes that they build: each dialect has identities of its own to hand
out.  Only an error that names a node tells them apart.
-/

namespace QueryCompiler

/-! ## The text depends on two hooks -/

/-- Two dialects that write alike, whatever they bind. -/
structure Dialect.WriteAlike (d d' : Dialect) : Prop where
  mark_eq : d.parameterMark = d'.parameterMark
  concat_eq : d.concat = d'.concat

theorem Dialect.writeAlike_generic_sqlserver : WriteAlike .generic .sqlserver := ⟨rfl, rfl⟩

namespace Sql

section

variable {d d' : Dialect}

mutual

theorem Scalar.render_congr (h : d.WriteAlike d') (level : Nat) : ∀ e : Scalar,
    e.render d level = e.render d' level
  | .reference .. | .null | .countStar => by simp only [Scalar.render]
  | .bound _ | .named _ => by simp only [Scalar.render, placeholder, h.mark_eq]
  | .binary op left right => by
      cases op <;> simp only [Scalar.render, h.concat_eq, Scalar.render_congr h level left,
        Scalar.render_congr h level right]
  | .unary _ operand | .nullTest _ operand | .aggregate _ _ operand => by
      simp only [Scalar.render, Scalar.render_congr h level operand]
  | .compare _ left right | .like left right => by
      simp only [Scalar.render, Scalar.render_congr h level left, Scalar.render_congr h level right]
  | .case condition positive negative => by
      simp only [Scalar.render, Scalar.render_congr h level condition,
        Scalar.render_congr h level positive, Scalar.render_congr h level negative]
  | .inList needle values => by
      simp only [Scalar.render, Scalar.render_congr h level needle,
        Scalar.renderAll_congr h level values]
  | .inSelect needle select => by
      simp only [Scalar.render, Scalar.render_congr h level needle,
        Select.render_congr h (level + 2) select]

theorem Scalar.renderAll_congr (h : d.WriteAlike d') (level : Nat) : ∀ es : List Scalar,
    Scalar.renderAll d level es = Scalar.renderAll d' level es
  | [] => rfl
  | e :: es => by
      rw [Scalar.renderAll, Scalar.renderAll, Scalar.render_congr h level e,
        Scalar.renderAll_congr h level es]

theorem Scalar.renderOption_congr (h : d.WriteAlike d') (level : Nat) : ∀ e : Option Scalar,
    Scalar.renderOption d level e = Scalar.renderOption d' level e
  | none => rfl
  | some e => by rw [Scalar.renderOption, Scalar.renderOption, Scalar.render_congr h level e]

theorem Output.renderAll_congr (h : d.WriteAlike d') (level : Nat) : ∀ outputs : List Output,
    Output.renderAll d level outputs = Output.renderAll d' level outputs
  | [] => rfl
  | .mk value _ :: outputs => by
      rw [Output.renderAll, Output.renderAll, Scalar.render_congr h level value,
        Output.renderAll_congr h level outputs]

theorem Source.render_congr (h : d.WriteAlike d') (level : Nat) : ∀ source : Source,
    source.render d level = source.render d' level
  | .table .. => by simp only [Source.render]
  | .derived select _ => by
      simp only [Source.render, Select.render_congr h (level + 1) select]

theorem Join.renderAll_congr (h : d.WriteAlike d') (level : Nat) : ∀ joins : List Join,
    Join.renderAll d level joins = Join.renderAll d' level joins
  | [] => rfl
  | .mk _ _ _ outer inner :: joins => by
      rw [Join.renderAll, Join.renderAll, Scalar.render_congr h level outer,
        Scalar.render_congr h level inner, Join.renderAll_congr h level joins]

theorem OrderItem.renderAll_congr (h : d.WriteAlike d') (level : Nat) : ∀ items : List OrderItem,
    OrderItem.renderAll d level items = OrderItem.renderAll d' level items
  | [] => rfl
  | .mk key _ :: items => by
      rw [OrderItem.renderAll, OrderItem.renderAll, Scalar.render_congr h level key,
        OrderItem.renderAll_congr h level items]

theorem Select.render_congr (h : d.WriteAlike d') (level : Nat) : ∀ select : Select,
    select.render d level = select.render d' level
  | .mk outputs source joins filter keys having order => by
      rw [Select.render, Select.render, Output.renderAll_congr h level outputs,
        Source.render_congr h level source, Join.renderAll_congr h level joins,
        Scalar.renderOption_congr h level filter, Scalar.renderAll_congr h level keys,
        Scalar.renderOption_congr h level having, OrderItem.renderAll_congr h level order]

end

theorem whereSuffix_congr (h : d.WriteAlike d') (filter : Option Scalar) :
    whereSuffix d filter = whereSuffix d' filter := by
  cases filter with
  | none => rfl
  | some e => rw [whereSuffix, whereSuffix, Scalar.render_congr h 0 e]

theorem Change.render_congr (h : d.WriteAlike d') (change : Change) :
    change.render d = change.render d' := by
  have hrender : ∀ e : Scalar, e.render d 0 = e.render d' 0 := Scalar.render_congr h 0
  cases change with
  | delete table filter =>
      exact congrArg (fun suffix => "DELETE FROM " ++ table ++ suffix) (whereSuffix_congr h filter)
  | update table assignments filter =>
      have hsettings : (assignments.map fun a => a.1 ++ " = " ++ a.2.render d 0) =
          assignments.map fun a => a.1 ++ " = " ++ a.2.render d' 0 :=
        List.map_congr_left fun a _ => congrArg (a.1 ++ " = " ++ ·) (hrender a.2)
      refine (congrArg (fun settings => "UPDATE " ++ table ++ " SET " ++
        String.intercalate ", " settings ++ whereSuffix d filter) hsettings).trans ?_
      exact congrArg (fun suffix => "UPDATE " ++ table ++ " SET " ++
        String.intercalate ", " _ ++ suffix) (whereSuffix_congr h filter)
  | insert table values =>
      have hvalues : (values.map fun a => a.2.render d 0) = values.map fun a => a.2.render d' 0 :=
        List.map_congr_left fun a _ => hrender a.2
      exact congrArg (fun texts => "INSERT INTO " ++ table ++ " (" ++
        String.intercalate ", " (values.map (·.1)) ++ ") VALUES (" ++
          String.intercalate ", " texts ++ ")") hvalues

end

end Sql

/-! ## The results of all dialects -/

/-- The errors are the same, but for the identity of a node. -/
inductive CompileError.SameReason : CompileError → CompileError → Prop
  | same {e} : SameReason e e
  | missingAlias {node i i'} : SameReason (.missingAlias node i) (.missingAlias node i')

/-- Every dialect refuses for the same reason, or all come to results, of which `A` holds. -/
inductive AcrossDialects {α : Type} (A : (Dialect → α) → Prop)
    (results : Dialect → Except CompileError α) : Prop
  | refused (e : Dialect → CompileError) : (∀ d, results d = .error (e d)) →
      (∀ d d', (e d).SameReason (e d')) → AcrossDialects A results
  | compiled (c : Dialect → α) : (∀ d, results d = .ok (c d)) → A c → AcrossDialects A results

/-- A truth value as a number; other values as they are. -/
def Value.boolAsInt : Value → Value
  | .bool b => .int (if b then 1 else 0)
  | v => v

/-- The results of the three dialects differ only in their placeholders' marks, in bound truth
values and, for one dialect, in the spelling of concatenation. -/
structure VaryAtHooks (c : Dialect → CompiledQuery) : Prop where
  sql_eq : (c .generic).sql = (c .sqlserver).sql
  length_params : ∀ d d', (c d).params.length = (c d').params.length
  params_sqlserver :
    (c .sqlserver).params = (c .generic).params.map fun p => (p.1, p.2.boolAsInt)
  /-- One list of unmarked placeholders and values underlies both. -/
  params_sqlite : ∃ bound : List (String × Value),
    (c .sqlserver).params = bound.map (fun p => ("@" ++ p.1, p.2)) ∧
      (c .sqlite).params = bound.map (fun p => (":" ++ p.1, p.2))

/-- The names of a query's output columns, as a compilation for a dialect chooses them. -/
def Query.outputNames (d : Dialect) (scope : Scope) (q : Query) (session : Session) :
    Except CompileError (List String) :=
  ((q.normalize.compileIn scope).start d session).1.map fun c =>
    c.select.outputs.map Sql.Output.name

/-! ## From pairs of dialects to all -/

theorem CompileError.Alike.sameReason {M : Matching} {e e' : CompileError} (h : e.Alike M e') :
    e.SameReason e' := by
  cases h with
  | same => exact .same
  | missingAlias _ => exact .missingAlias

theorem AcrossDialects.of_pairs {α : Type} {results : Dialect → Except CompileError α}
    {M : Dialect → Dialect → Matching} {A : Dialect → Dialect → α → α → Prop}
    {B : (Dialect → α) → Prop} (hB : ∀ c, (∀ d d', A d d' (c d) (c d')) → B c)
    (h : ∀ d d', ResultAlike (M d d') (A d d') (results d) (results d')) :
    AcrossDialects B results := by
  cases hg : results .generic with
  | error e =>
      have hall : ∀ d, ∃ e, results d = .error e := by
        intro d
        have hd := h .generic d
        rw [hg] at hd
        generalize results d = r at hd ⊢
        cases hd with
        | error _ => exact ⟨_, rfl⟩
      choose es hes using hall
      refine .refused es hes fun d d' => ?_
      have hd := h d d'
      rw [hes d, hes d'] at hd
      cases hd with
      | error he => exact he.sameReason
  | ok c =>
      have hall : ∀ d, ∃ c, results d = .ok c := by
        intro d
        have hd := h .generic d
        rw [hg] at hd
        generalize results d = r at hd ⊢
        cases hd with
        | ok _ => exact ⟨_, rfl⟩
      choose cs hcs using hall
      refine .compiled cs hcs (hB cs fun d d' => ?_)
      have hd := h d d'
      rw [hcs d, hcs d'] at hd
      cases hd with
      | ok hc => exact hc

section

variable {known : List NodeId} {ids ids' : Nat → NodeId} {h : FreshIds known ids}
  {h' : FreshIds known ids'}

theorem params_sqlserver_of_alike {ps ps' : List (String × Value)}
    (hp : List.Forall₂ (ParamAlike (.ofFresh h h') .generic .sqlserver) ps ps') :
    ps' = ps.map fun p => (p.1, p.2.boolAsInt) := by
  induction hp with
  | nil => rfl
  | cons hp _ ih =>
      obtain ⟨i, v, _, rfl, -, rfl, rfl⟩ := hp
      rw [List.map_cons, ih]
      cases v <;> rfl

theorem params_sqlite_of_alike {ps ps' : List (String × Value)}
    (hp : List.Forall₂ (ParamAlike (.ofFresh h h') .sqlserver .sqlite) ps ps') :
    ∃ bound : List (String × Value), ps = bound.map (fun p => ("@" ++ p.1, p.2)) ∧
      ps' = bound.map (fun p => (":" ++ p.1, p.2)) := by
  induction hp with
  | nil => exact ⟨[], rfl, rfl⟩
  | cons hp _ ih =>
      obtain ⟨i, v, _, rfl, -, rfl, rfl⟩ := hp
      obtain ⟨bound, rfl, rfl⟩ := ih
      refine ⟨("p" ++ toString i, Dialect.sqlserver.encode v) :: bound, ?_, ?_⟩
      · rw [List.map_cons, Sql.placeholder, String.append_assoc]
        rfl
      · rw [List.map_cons, Sql.placeholder, String.append_assoc]
        cases v <;> rfl

end

theorem VaryAtHooks.of_alike {known : List NodeId} {ids : Dialect → Nat → NodeId}
    (hids : ∀ d, FreshIds known (ids d)) {τ : Type} (render : Dialect → τ → String)
    (hrender : ∀ tree, render .generic tree = render .sqlserver tree) {c : Dialect → CompiledQuery}
    (h : ∀ d d', CompiledQuery.Alike (.ofFresh (hids d) (hids d')) d d' render (c d) (c d')) :
    VaryAtHooks c where
  sql_eq := by
    obtain ⟨⟨tree, hg, hs⟩, -⟩ := h .generic .sqlserver
    rw [hg, hs, hrender]
  length_params d d' := (h d d').2.length_eq
  params_sqlserver := params_sqlserver_of_alike (h .generic .sqlserver).2
  params_sqlite := params_sqlite_of_alike (h .sqlserver .sqlite).2

theorem AcrossDialects.of_alike {known : List NodeId} {ids : Dialect → Nat → NodeId}
    (hids : ∀ d, FreshIds known (ids d)) {τ : Type} (render : Dialect → τ → String)
    (hrender : ∀ tree, render .generic tree = render .sqlserver tree)
    {results : Dialect → Except CompileError CompiledQuery}
    (h : ∀ d d', ResultAlike (.ofFresh (hids d) (hids d'))
      (CompiledQuery.Alike (.ofFresh (hids d) (hids d')) d d' render) (results d) (results d')) :
    AcrossDialects VaryAtHooks results :=
  .of_pairs (fun _ hc => .of_alike hids render hrender hc) h

/-! ## Queries and statements -/

theorem Scope.Alike.refl_ofFresh {known : List NodeId} {ids ids' : Nat → NodeId}
    {h : FreshIds known ids} {h' : FreshIds known ids'} {scope : Scope}
    (hscope : ∀ i ∈ scope.ids, i ∈ known) : scope.Alike (.ofFresh h h') scope :=
  Entry.AlikeAll.refl (fun _ => rfl) scope fun i hi => .inl ⟨rfl, hscope i hi⟩

section

variable {scope : Scope} {ids : Dialect → Nat → NodeId}

theorem Query.compileText_acrossDialects (hids : ∀ d, FreshIds scope.ids (ids d)) (q : Query) :
    AcrossDialects VaryAtHooks (fun d => (compileQuery d scope q (.handingOut (ids d))).1) := by
  refine .of_alike hids (fun d s => Sql.Select.render d 0 s)
    (Sql.Select.render_congr Dialect.writeAlike_generic_sqlserver 0) fun d d' => ?_
  have hs : scope.Alike (.ofFresh (hids d) (hids d')) scope := .refl_ofFresh fun _ hi => hi
  exact (Query.Alike.compileText hs (.refl (fun _ => rfl) q)).start (.ofFresh _ _)

/-- If all dialects compile a query, their texts are those of one statement, and its outputs are the
outputs in every dialect. -/
theorem Query.exists_select (hids : ∀ d, FreshIds scope.ids (ids d)) (q : Query)
    {c : Dialect → CompiledQuery}
    (hc : ∀ d, (compileQuery d scope q (.handingOut (ids d))).1 = .ok (c d)) :
    ∃ select : Sql.Select, ∀ d, (c d).sql = select.render d 0 ∧
      q.outputNames d scope (.handingOut (ids d)) = .ok (select.outputs.map Sql.Output.name) := by
  have hrun : ∀ d d', CompileM.InStep (.ofFresh (hids d) (hids d')) d d' (Compiled.Alike _)
      (q.normalize.compileIn scope) (q.normalize.compileIn scope) := fun d d' =>
    Query.Alike.compileIn (.refl_ofFresh fun _ hi => hi) (.refl (fun _ => rfl) _)
  obtain ⟨compiled, ctx, s, t, hok, hs, -⟩ := compileQuery_eq_ok (hc .generic)
  refine ⟨compiled.select, fun d => ⟨?_, ?_⟩⟩
  · obtain ⟨compiled', ctx', s', t', hok', hs', hd⟩ := compileQuery_eq_ok (hc d)
    have ho := hrun .generic d _ _ s s' (.empty _ _ _) (by rw [hs, hs']; exact .ofFresh _ _)
    rw [hok, hok'] at ho
    cases ho with
    | ok ha _ _ => rw [hd, ha.select_eq]
  · have ho := hrun .generic d _ _ s (.handingOut (ids d)) (.empty _ _ _)
      (by rw [hs]; exact .ofFresh _ _)
    rw [Query.outputNames, CompileM.start_fst]
    generalize CompileM.outcome (q.normalize.compileIn scope) (.empty d) _ = r at ho ⊢
    rw [hok] at ho
    cases ho with
    | ok ha _ _ => rw [ha.select_eq]; rfl

theorem ScalarQuery.compileText_acrossDialects (hids : ∀ d, FreshIds scope.ids (ids d))
    (q : ScalarQuery) :
    AcrossDialects VaryAtHooks (fun d => (compileScalar d scope q (.handingOut (ids d))).1) := by
  refine .of_alike hids (fun d s => Sql.Select.render d 0 s)
    (Sql.Select.render_congr Dialect.writeAlike_generic_sqlserver 0) fun d d' => ?_
  have hs : scope.Alike (.ofFresh (hids d) (hids d')) scope := .refl_ofFresh fun _ hi => hi
  exact ScalarQuery.compileScalar_alike hs (.refl (fun _ => rfl) q.toQuery) (.ofFresh _ _)

theorem Statement.compileText_acrossDialects {st : Statement}
    (hids : ∀ d, FreshIds (scope.ids ++ st.ids) (ids d)) :
    AcrossDialects VaryAtHooks (fun d => (compileStatement d scope st (.handingOut (ids d))).1) := by
  refine .of_alike hids Sql.Change.render
    (Sql.Change.render_congr Dialect.writeAlike_generic_sqlserver) fun d d' => ?_
  have hs : scope.Alike (.ofFresh (hids d) (hids d')) scope :=
    .refl_ofFresh fun _ hi => List.mem_append_left _ hi
  have hst : st.Alike (.ofFresh (hids d) (hids d')) st :=
    .refl (fun _ => rfl) st fun i hi => .inl ⟨rfl, List.mem_append_right _ hi⟩
  exact (hst.compileText hs).start (.ofFresh _ _)

end

/-- Dialects differ at their hooks only: every query, every aggregate of a query and every statement
is refused in all dialects for one reason, or compiled in all of them, to results that vary with the
hooks alone; those of a query are the texts of one statement, with one list of output columns.  Each
dialect has its own identities to hand out, none twice and none that the scope or the statement
holds. -/
theorem compile_acrossDialects (scope : Scope) (ids : Dialect → Nat → NodeId)
    (hids : ∀ d, FreshIds scope.ids (ids d)) :
    (∀ q : Query,
      AcrossDialects
        (fun c => VaryAtHooks c ∧ ∃ select : Sql.Select, ∀ d, (c d).sql = select.render d 0 ∧
          q.outputNames d scope (.handingOut (ids d)) = .ok (select.outputs.map Sql.Output.name))
        (fun d => (compileQuery d scope q (.handingOut (ids d))).1)) ∧
    (∀ q : ScalarQuery,
      AcrossDialects VaryAtHooks (fun d => (compileScalar d scope q (.handingOut (ids d))).1)) ∧
    (∀ st : Statement, (∀ d n, ids d n ∉ st.ids) →
      AcrossDialects VaryAtHooks
        (fun d => (compileStatement d scope st (.handingOut (ids d))).1)) := by
  refine ⟨fun q => ?_, fun q => q.compileText_acrossDialects hids, fun st hst => ?_⟩
  · rcases q.compileText_acrossDialects hids with ⟨e, he, hsame⟩ | ⟨c, hc, hvary⟩
    · exact .refused e he hsame
    · exact .compiled c hc ⟨hvary, q.exists_select hids hc⟩
  · refine Statement.compileText_acrossDialects fun d => ⟨(hids d).injective, fun n hn => ?_⟩
    rcases List.mem_append.1 hn with hn | hn
    · exact (hids d).new n hn
    · exact hst d n hn

/-- Identities for each dialect, from different ranges. -/
private def apart : Dialect → Nat → NodeId
  | .generic, n => 1 + n
  | .sqlite, n => 100 + 2 * n
  | .sqlserver, n => 1000 + n

private def enclosingUser : Scope :=
  [.named "u" (.table ⟨"Users", ["Id"]⟩ [.column 0 "Users" "Id"])]

/-- Active users whose full name is among the names that a subquery picks. -/
private def activeAmong : Query :=
  .filter (.filter (.table ⟨"People", ["Id", "First", "Last", "Active"]⟩)
      (.compare .eq (.named .row "Active") (.literal (.bool true))))
    (.inQuery (.binary .concat (.named .row "First") (.named .row "Last"))
      (.select (.table ⟨"Names", ["Name", "Length"]⟩)
        [.tuple [.expr (.named .row "Name")]] none))

/-- A truth value, a concatenation and a subquery; a change that shares a node with the scope. -/
theorem compile_acrossDialects_activeAmong :
    (∀ d, FreshIds enclosingUser.ids (apart d)) ∧
    ((compileQuery .sqlite enclosingUser activeAmong (.handingOut (apart .sqlite))).1.map
      (·.params)).toOption = some [(":p0", .int 1)] ∧
    AcrossDialects
      (fun c => VaryAtHooks c ∧ ∃ select : Sql.Select, ∀ d, (c d).sql = select.render d 0 ∧
        activeAmong.outputNames d enclosingUser (.handingOut (apart d)) =
          .ok (select.outputs.map Sql.Output.name))
      (fun d => (compileQuery d enclosingUser activeAmong (.handingOut (apart d))).1) ∧
    AcrossDialects VaryAtHooks (fun d =>
      (compileStatement d enclosingUser
        (.insert ⟨⟨"Log", ["User", "Seen"]⟩, [("Seen", .literal 0 (.bool false))]⟩)
        (.handingOut (apart d))).1) := by
  have hids : ∀ d, FreshIds enclosingUser.ids (apart d) := by
    have hpos : ∀ d n, apart d n ≠ 0 := by
      intro d n
      cases d <;> simp [apart]
    refine fun d => ⟨fun m n h => ?_, fun n h => hpos d n (List.mem_singleton.1 h)⟩
    cases d <;> simp only [apart] at h <;> grind
  have hall := compile_acrossDialects enclosingUser apart hids
  refine ⟨hids, by decide +kernel, hall.1 activeAmong, hall.2.2 _ fun d n hn => ?_⟩
  exact (hids d).new n hn

end QueryCompiler
