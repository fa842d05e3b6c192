import QueryCompiler.Proofs.Grouping.Renumbering
import QueryCompiler.Proofs.Threading

/-! # `QueryCompiler.Proofs.Placement` — where the statements of a compilation stand

A compilation keeps count of how far in it is, and reports it, but writes nothing.  What is written is
written in the end, from the tree, and this keeps a count of its own.

                          compiled at           written at
    the query             0                     0
    a derived table       one level deeper      one level further in
    a subquery            two levels deeper     two levels further in

The two counts agree: every statement that is compiled in the course of a compilation is part of the
tree, and in the text of the whole it stands at the level at which it was compiled.
-/

namespace QueryCompiler

open CompileM

/-! ## Texts inside texts -/

namespace Text

/-- The one text is a part of the other. -/
def Within (part text : String) : Prop := part.toList <:+: text.toList

namespace Within

variable {part text a b : String}

theorem refl (text : String) : Within text text := List.infix_rfl

theorem trans {inner : String} (h : Within inner part) (h' : Within part text) :
    Within inner text :=
  List.IsInfix.trans h h'

theorem left (h : Within part a) (b : String) : Within part (a ++ b) := by
  rw [Within, String.toList_append]
  exact List.IsInfix.trans h (List.prefix_append ..).isInfix

theorem right (a : String) (h : Within part b) : Within part (a ++ b) := by
  rw [Within, String.toList_append]
  exact List.IsInfix.trans h (List.suffix_append ..).isInfix

theorem intercalate (separator : String) : ∀ {texts : List String}, part ∈ texts →
    Within part (String.intercalate separator texts)
  | [_], h => by
      rw [List.mem_singleton.1 h, String.intercalate_singleton]
      exact refl _
  | _ :: next :: texts, h => by
      rw [String.intercalate_cons_cons]
      rcases List.mem_cons.1 h with rfl | h
      · exact ((refl part).left _).left _
      · exact (intercalate separator h).right _

theorem bracket (h : Within part text) (atomic : Bool) : Within part (Sql.bracket atomic text) := by
  cases atomic with
  | true => exact h
  | false => exact (h.right _).left _

theorem concat (d : Dialect) (h : Within part a ∨ Within part b) : Within part (d.concat a b) := by
  cases d with
  | sqlite => exact h.elim (fun h => (h.left _).left _) (fun h => h.right _)
  | generic | sqlserver =>
      exact h.elim (fun h => (((h.right _).left _).left _).left _) (fun h => (h.right _).left _)

theorem operator (h : Within part a ∨ Within part b) (word : String) :
    Within part (a ++ " " ++ word ++ " " ++ b) :=
  h.elim (fun h => (((h.left _).left _).left _).left _) (fun h => h.right _)

end Within

end Text

open Text (Within)

/-! ## Statements inside statements -/

namespace Sql

def Join.keys : Join → List Scalar
  | .mk _ _ _ outer inner => [outer, inner]

/-- The expressions of a statement, clause by clause. -/
def Select.scalars (s : Select) : List Scalar :=
  s.joins.flatMap Join.keys ++ (s.filter.toList ++ (s.keys ++ (s.having.toList ++
    (s.order.map (·.key) ++ s.outputs.map (·.value)))))

/-- The statement is written in the text of the first one, at the given level. -/
inductive Select.Holds (root : Select) : Nat → Select → Prop
  | root : Holds root 0 root
  | derived {level s inner label} : Holds root level s → s.source = .derived inner label →
      Holds root (level + 1) inner
  | subquery {level s e inner} : Holds root level s → e ∈ s.scalars → inner ∈ e.selects →
      Holds root (level + 2) inner

variable {d : Dialect}

mutual

theorem Scalar.within_of_mem_selects (level : Nat) {s : Select} : ∀ {e : Scalar}, s ∈ e.selects →
    Within (s.render d (level + 2)) (e.render d level)
  | .unary op operand, h => by
      rw [Scalar.render]
      exact ((Scalar.within_of_mem_selects level (e := operand) h).bracket _).right _
  | .nullTest negated operand, h => by
      rw [Scalar.render]
      exact ((Scalar.within_of_mem_selects level (e := operand) h).bracket _).left _
  | .aggregate func distinct operand, h => by
      rw [Scalar.render]
      exact ((Scalar.within_of_mem_selects level (e := operand) h).right _).left _
  | .binary op left right, h => by
      have hoperand := (List.mem_append.1 h).imp
        (fun h => (Scalar.within_of_mem_selects level h).bracket left.isAtomic)
        fun h => (Scalar.within_of_mem_selects level h).bracket right.isAtomic
      by_cases hop : op = .concat
      · rw [hop, Scalar.render]
        exact .concat d hoperand
      · rw [Scalar.render_binary hop]
        exact .operator hoperand _
  | .compare op left right, h => by
      have hoperand := (List.mem_append.1 h).imp
        (fun h => (Scalar.within_of_mem_selects level h).bracket left.isAtomic)
        fun h => (Scalar.within_of_mem_selects level h).bracket right.isAtomic
      rw [Scalar.render]
      exact .operator hoperand _
  | .like value pattern, h => by
      rw [Scalar.render]
      rcases List.mem_append.1 h with h | h
      · exact (((Scalar.within_of_mem_selects level h).bracket _).left _).left _
      · exact ((Scalar.within_of_mem_selects level h).bracket _).right _
  | .case condition positive negative, h => by
      rw [Scalar.render]
      rcases List.mem_append.1 h with h | h
      · have hwhen := (Scalar.within_of_mem_selects level h).right "CASE WHEN "
        exact ((((hwhen.left _).left _).left _).left _).left _
      · rcases List.mem_append.1 h with h | h
        · have hthen := (Scalar.within_of_mem_selects level h).right
            ("CASE WHEN " ++ condition.render d level ++ " THEN ")
          exact ((hthen.left _).left _).left _
        · exact ((Scalar.within_of_mem_selects level h).right _).left _
  | .inList needle values, h => by
      rw [Scalar.render]
      rcases List.mem_append.1 h with h | h
      · exact ((((Scalar.within_of_mem_selects level h).bracket _).left _).left _).left _
      · exact ((Scalar.within_of_mem_selectsAll level h).right _).left _
  | .inSelect needle select, h => by
      rw [Scalar.render]
      rcases List.mem_append.1 h with h | h
      · have hneedle := (Scalar.within_of_mem_selects level h).bracket needle.isAtomic
        exact ((((hneedle.left _).left _).left _).left _).left _
      · obtain rfl := List.mem_singleton.1 h
        have hselect := (Within.refl (s.render d (level + 2))).right
          (bracket needle.isAtomic (needle.render d level) ++ " IN (\n")
        exact ((hselect.left _).left _).left _

theorem Scalar.within_of_mem_selectsAll (level : Nat) {s : Select} : ∀ {es : List Scalar},
    s ∈ Scalar.selectsAll es →
      Within (s.render d (level + 2)) (String.intercalate ", " (Scalar.renderAll d level es))
  | [e], h => by
      rw [Scalar.selectsAll, Scalar.selectsAll, List.append_nil] at h
      rw [Scalar.renderAll, Scalar.renderAll, String.intercalate_singleton]
      exact Scalar.within_of_mem_selects level h
  | e :: next :: es, h => by
      rw [Scalar.renderAll, Scalar.renderAll, String.intercalate_cons_cons]
      rcases List.mem_append.1 h with h | h
      · exact ((Scalar.within_of_mem_selects level h).left _).left _
      · exact (Scalar.within_of_mem_selectsAll level h).right _

end

def InLines (part : String) (lines : List String) : Prop := ∃ line ∈ lines, Within part line

namespace InLines

variable {part : String} {lines lines' : List String} {level : Nat}

theorem left (h : InLines part lines) (lines' : List String) : InLines part (lines ++ lines') := by
  obtain ⟨line, hmem, hpart⟩ := h
  exact ⟨line, List.mem_append_left _ hmem, hpart⟩

theorem right (lines : List String) (h : InLines part lines') : InLines part (lines ++ lines') := by
  obtain ⟨line, hmem, hpart⟩ := h
  exact ⟨line, List.mem_append_right _ hmem, hpart⟩

theorem within (h : InLines part lines) : Within part (String.intercalate "\n" lines) := by
  obtain ⟨line, hmem, hpart⟩ := h
  exact hpart.trans (.intercalate _ hmem)

theorem commaLines (level : Nat) {text : String} : ∀ {texts : List String}, text ∈ texts →
    InLines (pad level ++ text) (Sql.commaLines level texts)
  | [_], h => by
      rw [List.mem_singleton.1 h]
      exact ⟨_, List.mem_cons_self, .refl _⟩
  | _ :: next :: texts, h => by
      rcases List.mem_cons.1 h with rfl | h
      · exact ⟨_, List.mem_cons_self, (Within.refl _).left _⟩
      · exact right [_] (commaLines level h)

theorem clauseLines {items : List String} (h : InLines part items) (word : String) :
    InLines part (Sql.clauseLines level word items) := by
  obtain ⟨item, hmem, hpart⟩ := h
  cases items with
  | nil => exact absurd hmem List.not_mem_nil
  | cons first items =>
      refine ⟨pad (level + 1) ++ String.intercalate ", " (first :: items), ?_, ?_⟩
      · exact List.mem_cons_of_mem _ (List.mem_singleton_self _)
      · exact (hpart.trans (.intercalate _ hmem)).right _

theorem scalars {e : Scalar} : ∀ {es : List Scalar}, e ∈ es →
    InLines (e.render d level) (Scalar.renderAll d level es)
  | _ :: _, h => by
      rcases List.mem_cons.1 h with rfl | h
      · exact ⟨_, List.mem_cons_self, .refl _⟩
      · exact right [_] (scalars h)

theorem option {e : Scalar} {o : Option Scalar} (h : e ∈ o.toList) :
    InLines (e.render d level) (Scalar.renderOption d level o) := by
  obtain rfl := Option.mem_toList.1 h
  exact ⟨_, List.mem_singleton_self _, .refl _⟩

theorem order {e : Scalar} : ∀ {items : List OrderItem}, e ∈ items.map (·.key) →
    InLines (e.render d level) (OrderItem.renderAll d level items)
  | .mk _ _ :: _, h => by
      rcases List.mem_cons.1 h with rfl | h
      · exact ⟨_, List.mem_cons_self, ((Within.refl _).left _).left _⟩
      · exact right [_] (order h)

theorem joins {e : Scalar} : ∀ {joins : List Join}, e ∈ joins.flatMap Join.keys →
    InLines (e.render d level) (Join.renderAll d level joins)
  | .mk kind table label outer inner :: _, h => by
      rw [List.flatMap_cons] at h
      rcases List.mem_append.1 h with h | h
      · refine ⟨_, List.mem_cons_self, ?_⟩
        rcases List.mem_pair.1 h with rfl | rfl
        · exact ((((Within.refl _).bracket _).right _).left _).left _
        · exact ((Within.refl _).bracket _).right _
      · exact right [_] (joins h)

end InLines

theorem Output.mem_renderAll (level : Nat) {o : Output} : ∀ {outputs : List Output}, o ∈ outputs →
    o.value.render d level ++ " AS " ++ o.name ∈ Output.renderAll d level outputs
  | .mk _ _ :: _, h => by
      rcases List.mem_cons.1 h with rfl | h
      · exact List.mem_cons_self
      · exact List.mem_cons_of_mem _ (Output.mem_renderAll level h)

/-- A statement starts with its word, as far in as it stands. -/
theorem Select.within_word (level : Nat) (s : Select) :
    Within (pad level ++ "SELECT") (s.render d level) := by
  obtain ⟨outputs, source, joins, filter, keys, having, order⟩ := s
  rw [Select.render]
  exact InLines.within ⟨_, List.mem_cons_self, .refl _⟩

/-- A statement shows its outputs one level further in. -/
theorem Select.within_output (level : Nat) {s : Select} {o : Output} (h : o ∈ s.outputs) :
    Within (pad (level + 1) ++ (o.value.render d level ++ " AS " ++ o.name)) (s.render d level) := by
  obtain ⟨outputs, source, joins, filter, keys, having, order⟩ := s
  rw [Select.render]
  have hlines := (InLines.commaLines (level + 1) (Output.mem_renderAll (d := d) level h)).right
    [pad level ++ "SELECT"]
  exact ((((((hlines.left _).left _).left _).left _).left _).left _).within

/-- A statement shows all its expressions. -/
theorem Select.within_of_mem_scalars (level : Nat) {s : Select} {e : Scalar} (h : e ∈ s.scalars) :
    Within (e.render d level) (s.render d level) := by
  obtain ⟨outputs, source, joins, filter, keys, having, order⟩ := s
  simp only [Select.scalars, Select.joins, Select.filter, Select.keys, Select.having, Select.order,
    List.mem_append] at h
  rcases h with h | h | h | h | h | h
  on_goal 6 =>
    obtain ⟨o, ho, rfl⟩ := List.mem_map.1 h
    exact ((((Within.refl _).left _).left _).right _).trans (Select.within_output level ho)
  all_goals
    rw [Select.render]
    refine InLines.within ?_
  · exact (((((InLines.joins h).right _).left _).left _).left _).left _
  · exact (((((InLines.option h).clauseLines _).right _).left _).left _).left _
  · exact ((((InLines.scalars h).clauseLines _).right _).left _).left _
  · exact (((InLines.option h).clauseLines _).right _).left _
  · exact ((InLines.order h).clauseLines _).right _

/-- A statement shows the one that it reads from. -/
theorem Select.within_of_source (level : Nat) {s inner : Select} {label : String}
    (h : s.source = .derived inner label) :
    Within (inner.render d (level + 1)) (s.render d level) := by
  obtain ⟨outputs, source, joins, filter, keys, having, order⟩ := s
  obtain rfl : source = .derived inner label := h
  rw [Select.render]
  have hsource : InLines (inner.render d (level + 1)) (Source.render d level (.derived inner label)) :=
    ⟨_, List.mem_cons_of_mem _ List.mem_cons_self, .refl _⟩
  exact ((((((hsource.right _).left _).left _).left _).left _).left _).within

/-- What a statement holds is part of its text. -/
theorem Select.Holds.within {root s : Select} {level : Nat} (h : root.Holds level s) :
    Within (s.render d level) (root.render d 0) := by
  induction h with
  | root => exact .refl _
  | derived _ hsource ih => exact (Select.within_of_source _ hsource).trans ih
  | subquery _ he hinner ih =>
      exact (Scalar.within_of_mem_selects _ hinner).trans ((Select.within_of_mem_scalars _ he).trans ih)

end Sql

/-! ## Levels -/

section

variable {depth : Nat} {scope : Scope} {μ ν : Moment}

theorem WritesAll.indent_eq {es : List Expr} {ts : List Sql.Scalar}
    (h : WritesAll (compileWithin depth) es μ ts ν) : ν.context.indent = μ.context.indent :=
  ((Expr.scriptAll (T := fun _ => False) (compileWithin.script depth) es).evolves_level h.takes).2

/-- The expressions are written at the level, in a statement with these expressions. -/
def WrittenAt (depth level : Nat) (scalars : List Sql.Scalar) (p : List Expr × Moment) : Prop :=
  p.2.context.indent = level ∧
    ∃ ts ν, WritesAll (compileWithin depth) p.1 p.2 ts ν ∧ ts ⊆ scalars

theorem Batch.indent_start {build : Build (List Expr)} (b : Batch (compileWithin depth) build μ) :
    b.start.context.indent = μ.context.indent := by
  rw [(takes_build.1 b.built).2.1]

theorem Batch.indent_stop {build : Build (List Expr)} (b : Batch (compileWithin depth) build μ) :
    b.stop.context.indent = μ.context.indent :=
  b.writes.indent_eq.trans b.indent_start

theorem Batch.writtenAt {build : Build (List Expr)} (b : Batch (compileWithin depth) build μ)
    {level : Nat} (hμ : μ.context.indent = level) {scalars : List Sql.Scalar}
    (h : b.texts ⊆ scalars) : WrittenAt depth level scalars (b.nodes, b.start) :=
  ⟨b.indent_start.trans hμ, b.texts, b.stop, b.writes, h⟩

theorem WrittenAt.mono {level : Nat} {scalars scalars' : List Sql.Scalar} {p : List Expr × Moment}
    (h : WrittenAt depth level scalars p) (hsub : scalars ⊆ scalars') :
    WrittenAt depth level scalars' p := by
  obtain ⟨hlevel, ts, ν, hw, hts⟩ := h
  exact ⟨hlevel, ts, ν, hw, List.Subset.trans hts hsub⟩

theorem JoinsRun.writtenAt {joins : List JoinTerm} {row row' : Row} {keys : List (List Expr × Moment)}
    {sqls : List Sql.Join} (h : JoinsRun (compileWithin depth) scope joins row μ keys sqls row' ν) :
    ν.context.indent = μ.context.indent ∧
      ∀ p ∈ keys, WrittenAt depth μ.context.indent (sqls.flatMap Sql.Join.keys) p := by
  induction h with
  | nil => exact ⟨rfl, List.forall_mem_nil _⟩
  | @cons join _ _ _ _ _ _ _ μ _ ξ _ sqls _ _ outerKey innerKey htable houter hinner hpaired _ ih =>
      have hκ := ((compileTable.script (T := fun _ => False) join.table).evolves_level htable).2
      have houterStop := outerKey.indent_stop.trans hκ
      have hξ : ξ.context.indent = μ.context.indent := by
        rw [← (takes_build.1 hpaired).2.1]
        exact innerKey.indent_stop.trans houterStop
      rw [hξ] at ih
      refine ⟨ih.1, ?_⟩
      rw [List.forall_mem_cons, List.forall_mem_cons]
      refine ⟨outerKey.writtenAt hκ ?_, innerKey.writtenAt houterStop ?_, fun p hp => ?_⟩
      · simp [houter, Sql.Join.keys]
      · simp [hinner, Sql.Join.keys]
      · exact (ih.2 p hp).mono (by simp)

theorem SelectRun.writtenAt {block : Block} (run : SelectRun (compileWithin depth) scope block μ) :
    ∀ p ∈ run.expressions, WrittenAt depth μ.context.indent run.compiled.select.scalars p := by
  have hopened : run.opened.context.indent = μ.context.indent := by
    rw [run.entered_eq]
    exact ((Base.script (T := fun _ => False) (compileWithin.script depth) scope
      block.base).evolves_level run.base_takes).2
  obtain ⟨hjoined, hjoins⟩ := run.joins_run.writtenAt
  have hjoined := hjoined.trans hopened
  have hfilter := run.filter.indent_stop.trans hjoined
  have hkeys := run.keys.indent_stop.trans hfilter
  have hhaving := run.having.indent_stop.trans hkeys
  have horder := run.order.indent_stop.trans hhaving
  rw [expressions, List.forall_mem_append]
  refine ⟨fun p hp => (hopened ▸ hjoins p hp).mono (by simp [Sql.Select.scalars]), ?_⟩
  simp only [List.forall_mem_cons]
  refine ⟨run.filter.writtenAt hjoined ?_, run.keys.writtenAt hfilter ?_,
    run.having.writtenAt hkeys ?_, run.order.writtenAt hhaving ?_,
    run.outputs.writtenAt horder ?_, List.forall_mem_nil _⟩
  · exact fun t ht => by simp [Sql.Select.scalars, run.filter_eq, ht]
  · exact fun t ht => by simp [Sql.Select.scalars, run.keys_eq, ht]
  · exact fun t ht => by simp [Sql.Select.scalars, run.having_eq, ht]
  · exact fun t ht => by simp [Sql.Select.scalars, run.order_eq, ht]
  · exact fun t ht => by simp [Sql.Select.scalars, run.outputs_eq, ht]

/-! ## Visits -/

theorem Sql.Scalar.mem_selectsAll {s : Sql.Select} {ts : List Sql.Scalar} :
    s ∈ Sql.Scalar.selectsAll ts ↔ ∃ t ∈ ts, s ∈ t.selects := by
  induction ts with
  | nil => simp [Sql.Scalar.selectsAll]
  | cons t ts ih => simp [Sql.Scalar.selectsAll, ih]

/-- What the visit comes to stands in the statement at the level of the visit, or two levels further
in if it is in an expression. -/
def Visit.PlacedIn (root : Sql.Select) (v : Visit) : Prop :=
  match v.task with
  | .block scope block =>
    ∃ compiled ν, (block.compile (compileWithin v.depth) scope).Takes v.start compiled ν ∧
      root.Holds v.start.context.indent compiled.select
  | .exprs es =>
    ∃ ts ν, WritesAll (compileWithin v.depth) es v.start ts ν ∧
      ∀ s ∈ Sql.Scalar.selectsAll ts, root.Holds (v.start.context.indent + 2) s

theorem Visit.Reaches.placedIn {root : Sql.Select} {v w : Visit} (h : v.Reaches w)
    (hv : v.PlacedIn root) : w.PlacedIn root := by
  induction h with
  | refl => exact hv
  | derived run _ hbase ih =>
      obtain ⟨compiled, ξ, hblock, hholds⟩ := ih
      obtain ⟨rfl, -⟩ := hblock.unique run.takes
      have hinner := run.base_takes
      rw [hbase, Base.compile, takes_bind] at hinner
      obtain ⟨inner, κ, hinner, hderived⟩ := hinner
      obtain ⟨ζ, hblock, -⟩ := hinner.indented
      have hsource := (compileDerived_counter hderived).1
      rw [← run.source_eq] at hsource
      refine ⟨inner, ζ, hblock, ?_⟩
      have hlevel := hholds.derived hsource
      rwa [run.entered_eq] at hlevel
  | clause run _ hmem ih =>
      obtain ⟨compiled, ξ, hblock, hholds⟩ := ih
      obtain ⟨rfl, -⟩ := hblock.unique run.takes
      obtain ⟨hlevel, ts, ν, hw, hts⟩ := run.writtenAt _ hmem
      refine ⟨ts, ν, hw, fun s hs => ?_⟩
      obtain ⟨t, ht, hs⟩ := Sql.Scalar.mem_selectsAll.1 hs
      rw [hlevel]
      exact hholds.subquery (hts ht) hs
  | operands _ hes hid ha hos ih =>
      obtain ⟨ts, ξ, hall, hholds⟩ := ih
      obtain ⟨t, ht, ζ, he, -⟩ := hall.split (compileWithin_evolves _) hes
      obtain ⟨rfl, -⟩ := he.unique (.assembled hid ha hos)
      refine ⟨_, _, hos, fun s hs => ?_⟩
      rw [hes.indent_eq]
      exact hholds s (Sql.Scalar.mem_selectsAll.2 ⟨t, ht, ha.selects_eq ▸ hs⟩)
  | needle _ hes hid ih =>
      obtain ⟨ts, ξ, hall, hholds⟩ := ih
      obtain ⟨t, ht, ζ, he, -⟩ := hall.split (compileWithin_evolves _) hes
      obtain ⟨n, κ, normal, ω, select, hneedle, -, -, rfl⟩ := he.of_inQuery hid
      refine ⟨[n], κ, .one hneedle, fun s hs => ?_⟩
      rw [hes.indent_eq]
      refine hholds s (Sql.Scalar.mem_selectsAll.2 ⟨_, ht, ?_⟩)
      obtain ⟨_, hn, hmem⟩ := Sql.Scalar.mem_selectsAll.1 hs
      obtain rfl := List.mem_singleton.1 hn
      exact List.mem_append_left _ hmem
  | subquery _ hes hid hneedle hnormal hblock ih =>
      obtain ⟨ts, ξ, hall, hholds⟩ := ih
      obtain ⟨t, ht, ζ, he, -⟩ := hall.split (compileWithin_evolves _) hes
      obtain ⟨n, κ, normal, ω, select, hneedle', hnormal', hselect, rfl⟩ := he.of_inQuery hid
      obtain ⟨-, rfl⟩ := hneedle.unique hneedle'
      obtain ⟨rfl, rfl⟩ := hnormal.unique hnormal'
      obtain ⟨η, hsub, -⟩ := hselect.indented
      obtain ⟨compiled, hcompiled, rfl⟩ := takes_compileWithin_succ.1 hsub
      rw [Query.compile, hblock] at hcompiled
      refine ⟨compiled, _, hcompiled, ?_⟩
      have hlevel := ((CompileM.normalize.script (T := fun _ => False) _).evolves_level hnormal).2.trans
        ((WritesAll.one hneedle).indent_eq.trans hes.indent_eq)
      have hheld := hholds _ (Sql.Scalar.mem_selectsAll.2
        ⟨_, ht, List.mem_append_right _ (List.mem_singleton_self _)⟩)
      rw [← hlevel] at hheld
      exact hheld

/-! ## Whole compilations -/

variable {d : Dialect} {session : Session} {q : Query} {inner : Scope} {block : Block}

/-- Every statement that is compiled is held by the whole, at the level at which it is compiled. -/
theorem Query.CompilesTo.holds {compiled : Compiled} {last : Context}
    (h : q.CompilesTo d scope session compiled last)
    (hv : q.Visits d scope session ⟨depth, .block inner block, μ⟩)
    (run : SelectRun (compileWithin depth) inner block μ) :
    compiled.select.Holds μ.context.indent run.compiled.select := by
  obtain ⟨rootBlock, μ₀, hμ₀, hblock, hreach⟩ := hv
  obtain ⟨μ₁, ν, hμ₁, hcompiled, -⟩ := Query.compilesTo_iff.1 h
  obtain ⟨-, rfl⟩ := hμ₀.unique hμ₁
  obtain ⟨μ₁, hμ₁, hcontext, -⟩ := exists_enter d q ⟨.empty d, session⟩
  obtain ⟨-, rfl⟩ := hμ₀.unique hμ₁
  rw [Query.compileIn, Query.compile, hblock] at hcompiled
  have hroot : compiled.select.Holds μ₀.context.indent compiled.select := by
    rw [hcontext]
    exact .root
  obtain ⟨_, _, hrun, hholds⟩ := hreach.placedIn ⟨compiled, ν, hcompiled, hroot⟩
  obtain ⟨rfl, -⟩ := hrun.unique run.takes
  exact hholds

/-- In the text of the whole every statement that is compiled stands as far in as the context says:
its word behind the blanks of the statement at hand, its outputs behind those of one level more. -/
theorem compileQuery_placed {c : CompiledQuery} (h : (compileQuery d scope q session).1 = .ok c)
    (hv : q.Visits d scope session ⟨depth, .block inner block, μ⟩)
    (run : SelectRun (compileWithin depth) inner block μ) :
    Within (run.compiled.select.render d μ.context.indent) c.sql ∧
      Within (μ.context.pad 0 ++ "SELECT") c.sql ∧
      ∀ o ∈ run.compiled.select.outputs,
        Within (μ.context.pad 1 ++ (o.value.render d μ.context.indent ++ " AS " ++ o.name)) c.sql := by
  obtain ⟨compiled, last, hcompiled, rfl⟩ := compileQuery_iff_compilesTo.1 h
  have hwithin := (hcompiled.holds hv run).within (d := d)
  exact ⟨hwithin, (Sql.Select.within_word _ _).trans hwithin,
    fun o ho => (Sql.Select.within_output _ ho).trans hwithin⟩

end

end QueryCompiler
