import QueryCompiler.Proofs.Aliases
import QueryCompiler.Proofs.Lines.Compile
import QueryCompiler.Proofs.Relabelling.Compile

/-! # `QueryCompiler.Proofs.Indentation` — a compilation further in

A context says how far in the statement at hand stands.  The compiler reads that only to report it,
so a compilation that starts `k` levels further in takes the same course: the same error, or the same
tree, fields, placeholders and aliases.  What is written differs by blanks.  With no line break in any
name of the query, of its scope and of the alias table,

    lines of a statement at n + k     =   those at n, each with 4 * k blanks in front
    lines of an expression at n + k   =   those at n, each but the first with 4 * k blanks in front

The names asked for in the alias table are those that can be looked up: an entry that a later one
hides is not read, and the run is compared with one from which such entries are gone.
-/

namespace QueryCompiler

open CompileM
open Text (OneLine lines)

/-! ## Texts further in -/

/-- The text with the blanks of so many levels in front of every line. -/
def Text.shifted (levels : Nat) (s : String) : String :=
  String.intercalate "\n" ((lines s).map (Sql.pad levels ++ ·))

/-- The text with the blanks of so many levels in front of every line but the first. -/
def Text.hanging (levels : Nat) (s : String) : String :=
  String.intercalate "\n" ((lines s).take 1 ++ ((lines s).drop 1).map (Sql.pad levels ++ ·))

theorem Text.pad_append_hanging (levels : Nat) (s : String) :
    Sql.pad levels ++ Text.hanging levels s = Text.shifted levels s := by
  rw [Text.hanging, Text.shifted]
  obtain ⟨first, rest, hlines⟩ := List.exists_cons_of_ne_nil (Text.lines_ne_nil s)
  rw [hlines, List.map_cons, String.intercalate_cons_append]
  rfl

theorem Text.indent_eq_hanging (levels : Nat) (s : String) :
    Text.indent levels s = Text.hanging levels s := by
  have h := @Text.pad_append_indent levels s
  rw [← Text.shifted, ← Text.pad_append_hanging] at h
  exact (String.append_right_inj _).1 h

/-! ## The alias table without what is hidden -/

/-- The context with only those entries of its alias table that can be looked up. -/
def Context.visible (ctx : Context) : Context :=
  { ctx with aliases := ctx.aliases.filter fun a => ctx.referenceOf a.1 = some a.2 }

theorem Context.referenceOf_visible (ctx : Context) (id : NodeId) :
    ctx.visible.referenceOf id = ctx.referenceOf id := by
  cases h : ctx.referenceOf id with
  | none =>
      refine List.lookup_eq_none_iff.2 fun a ha => ?_
      exact List.lookup_eq_none_iff.1 h a (List.mem_of_mem_filter ha)
  | some r =>
      -- the entry that is found is kept, and no entry of the same node stands before it
      obtain ⟨before, after, haliases, hbefore⟩ := List.lookup_eq_some_iff.1 h
      have hsplit : ctx.visible.aliases =
          before.filter (fun a => ctx.referenceOf a.1 = some a.2) ++
            (id, r) :: after.filter (fun a => ctx.referenceOf a.1 = some a.2) := by
        show ctx.aliases.filter _ = _
        rw [haliases, List.filter_append, List.filter_cons_of_pos (by simpa using h)]
      refine List.lookup_eq_some_iff.2 ⟨_, _, hsplit, fun a ha => ?_⟩
      exact hbefore a (List.mem_of_mem_filter ha)

/-- What can be looked up in the context has names on one line. -/
def Context.OneLined (ctx : Context) : Prop :=
  ∀ id r, ctx.referenceOf id = some r → OneLine r.qualifier ∧ OneLine r.field

theorem Context.OneLined.visible {ctx : Context} (h : ctx.OneLined) :
    ctx.visible.Spelled .oneLined := by
  intro a ha
  obtain ⟨hq, hf⟩ := h a.1 a.2 (of_decide_eq_true (List.mem_filter.1 ha).2)
  exact ⟨hq, Spelling.oneLined.lacks hf⟩

/-! ## The same course at two levels -/

/-- Two outcomes of one step: the same error, or related results with the same placeholders and
aliases given out and the same nodes registered. -/
inductive FurtherIn {α : Type} (A : α → α → Prop) :
    Except CompileError (α × Context) → Except CompileError (α × Context) → Prop
  | refused {e} : FurtherIn A (.error e) (.error e)
  | compiled {a a' last last'} : A a a' → last'.params = last.params →
      last'.nextAlias = last.nextAlias → last'.referenceOf = last.referenceOf →
      FurtherIn A (.ok (a, last)) (.ok (a', last'))

theorem FurtherIn.imp {α : Type} {A B : α → α → Prop} {r r' : Except CompileError (α × Context)}
    (h : FurtherIn A r r') (hAB : ∀ a a', A a a' → B a a') : FurtherIn B r r' := by
  cases h with
  | refused => exact .refused
  | compiled ha hparams hnext hread => exact .compiled (hAB _ _ ha) hparams hnext hread

theorem Context.visible_relabelled (ctx : Context) (level level' : Nat) :
    Context.Relabelled id { ctx.visible with indent := level } { ctx with indent := level' } :=
  .same rfl rfl (fun node => (ctx.referenceOf_visible node).symm) rfl

/-- A step that takes no notice of labels takes none of the level either, and what it comes to has
the spelling that its names give it. -/
theorem CompileM.Relabels.furtherIn {α : Type} {g : α → α} {m : CompileM α} {P : α → Prop}
    (hm : Relabels id g m m) (hg : ∀ a, g a = a) (hspells : Spells .oneLined P m) {ctx : Context}
    (hctx : ctx.OneLined) (session : Session) (level level' : Nat) :
    FurtherIn (fun a a' => a' = a ∧ P a) (outcome m { ctx with indent := level } session).1
      (outcome m { ctx with indent := level' } session).1 := by
  -- both runs are compared with one from the visible part of the alias table
  have hrun := hm _ _ session session (ctx.visible_relabelled level level) rfl
  have hrun' := hm _ _ session session (ctx.visible_relabelled level level') rfl
  revert hrun hrun'
  generalize hvisible : outcome m { ctx.visible with indent := level } session = r
  generalize outcome m { ctx with indent := level } session = r₁
  generalize outcome m { ctx with indent := level' } session = r₂
  intro hrun hrun'
  cases hrun with
  | error => cases hrun' with
    | error => exact .refused
  | @ok a last _ _ _ hlast => cases hrun' with
    | ok hlast' =>
        have hstart : Context.Spelled .oneLined { ctx.visible with indent := level } := hctx.visible
        have ha : P a := (hspells hstart hvisible).2
        refine .compiled ⟨rfl, (hg a).symm ▸ ha⟩ (hlast'.params_eq.trans hlast.params_eq.symm) ?_
          (funext fun id => (hlast'.referenceOf_eq id).trans (hlast.referenceOf_eq id).symm)
        exact Context.aliasName_inj.1 (hlast'.label_eq.trans hlast.label_eq.symm)

/-- Indentation adds blanks in front of lines and does nothing else.  Whatever the context, with no
line break in a name that can be looked up in it: the statement of a query that has no line break in
its names and within its scope is compiled `levels` further in exactly if it is here, or both fail
with the same error; fields, placeholders, registrations and the aliases given out are the same, and
the text is that from here with so many levels of four blanks in front of every line.  The text of an
expression gets them in front of every line but the first. -/
theorem compile_furtherIn (depth : Nat) {ctx : Context} (hctx : ctx.OneLined) (session : Session)
    (level levels : Nat) :
    (∀ (scope : Scope) (q : Query), (∀ name ∈ q.names ++ scope.names, OneLine name) →
      FurtherIn
        (fun c c' => c'.fields = c.fields ∧
          c'.select.render ctx.dialect (level + levels) =
            Text.shifted levels (c.select.render ctx.dialect level))
        (outcome (q.compile (compileWithin depth) scope) { ctx with indent := level } session).1
        (outcome (q.compile (compileWithin depth) scope)
          { ctx with indent := level + levels } session).1) ∧
    ∀ e : Expr, (∀ name ∈ e.names, OneLine name) →
      FurtherIn
        (fun t t' => t'.render ctx.dialect (level + levels) =
          Text.hanging levels (t.render ctx.dialect level))
        (outcome (e.compile (compileWithin depth)) { ctx with indent := level } session).1
        (outcome (e.compile (compileWithin depth))
          { ctx with indent := level + levels } session).1 := by
  have hsub : (compileWithin depth).Spells .oneLined := compileWithin_spells trivial depth
  constructor
  · intro scope q hnames
    obtain ⟨hq, hscope⟩ := List.forall_mem_append.1 hnames
    have hg : ∀ c : Compiled, c.relabel id = c := by
      intro c
      rw [Compiled.relabel, c.select.relabel_id]
    refine ((q.compile_relabels (compileWithin_relabels depth) scope).furtherIn hg
      (Query.compile_spells hsub hscope (Query.obeys_named hq)) hctx session level _).imp ?_
    rintro c _ ⟨rfl, hspelled⟩
    exact ⟨rfl, by rw [Sql.Select.render_add level hspelled.select, Text.pad_append_indent]; rfl⟩
  · intro e hnames
    refine ((e.compile_relabels (compileWithin_relabels depth)).furtherIn Sql.Scalar.relabel_id
      (Expr.compile_spells hsub hnames) hctx session level _).imp ?_
    rintro t _ ⟨rfl, hspelled⟩
    rw [Sql.Scalar.render_add level hspelled, Text.indent_eq_hanging]

/-- Where users are read under their first alias. -/
private def amongUsers : Context :=
  { dialect := .generic, aliases := [(0, ⟨"a0", "Id"⟩)], nextAlias := 1 }

/-- The user at hand has an order. -/
private def hasOrder : Expr :=
  .inQuery 1 (.column 0 "Users" "Id") (.select (.table ⟨"Orders", ["UserId"]⟩) [] none) []

/-- Users, kept apart, who are not the one at hand. -/
private def otherUsers : Query :=
  .select (.filter (.derived (.table ⟨"Users", ["Id"]⟩))
    (.compare .ne (.named .row "Id") (.literal (.int 7)))) [] none

/-- The subquery of an expression moves with it, and the bracket behind it too. -/
theorem compile_furtherIn_hasOrder :
    amongUsers.OneLined ∧ (∀ name ∈ otherUsers.names ++ Scope.names [], OneLine name) ∧
    (∀ name ∈ hasOrder.names, OneLine name) ∧
    FurtherIn
      (fun c c' => c'.fields = c.fields ∧
        c'.select.render .generic (1 + 2) = Text.shifted 2 (c.select.render .generic 1))
      (outcome (otherUsers.compile (compileWithin 1) []) { amongUsers with indent := 1 } {}).1
      (outcome (otherUsers.compile (compileWithin 1) []) { amongUsers with indent := 1 + 2 } {}).1 ∧
    FurtherIn
      (fun t t' => t'.render .generic (1 + 2) = Text.hanging 2 (t.render .generic 1))
      (outcome (hasOrder.compile (compileWithin 1)) { amongUsers with indent := 1 } {}).1
      (outcome (hasOrder.compile (compileWithin 1)) { amongUsers with indent := 1 + 2 } {}).1 ∧
    (outcome (hasOrder.compile (compileWithin 1)) { amongUsers with indent := 1 } {}).1.toOption.map
      (fun r => r.1.render .generic 1) = some ("a0.Id IN (\n            SELECT\n" ++
        "                a1.UserId AS UserId\n            FROM\n                Orders a1\n        )") := by
  have hctx : amongUsers.OneLined := by
    intro id r h
    obtain ⟨before, after, haliases, -⟩ := List.lookup_eq_some_iff.1 h
    have hmem : (id, r) ∈ amongUsers.aliases := haliases ▸ by simp
    obtain rfl : r = ⟨"a0", "Id"⟩ := congrArg Prod.snd (List.mem_singleton.1 hmem)
    decide
  have hq : ∀ name ∈ otherUsers.names ++ Scope.names [], OneLine name := by decide +kernel
  have he : ∀ name ∈ hasOrder.names, OneLine name := by decide +kernel
  obtain ⟨hquery, hexpr⟩ := compile_furtherIn 1 hctx {} 1 2
  exact ⟨hctx, hq, he, hquery [] otherUsers hq, hexpr hasOrder he, by decide +kernel⟩

end QueryCompiler
