import QueryCompiler.Clause.Subqueries
import QueryCompiler.Proofs.Fusion.Passes
import QueryCompiler.Query.Block

/-! # `QueryCompiler.Proofs.Likeness.Terms` — queries that differ in their literals only

Two terms are *alike* under a relation `V` on values if they agree constructor by constructor, and
`V` relates the values of the literals that stand in one place.  Everything else is the same on both
sides: names, tables, operators, aliases, the number of stages and of keys.

    literal v         literal w             if `V v w`
    c t₁ … tₙ         c t₁' … tₙ'           if each `tᵢ` is like `tᵢ'`

What a query is brought to before it is compiled looks at no literal: fusing clauses and laying
out blocks take alike queries to alike ones, pass by pass.
-/

namespace QueryCompiler

mutual

/-- The terms agree up to the values of literals, which `V` relates. -/
inductive ExprTerm.Alike (V : Value → Value → Prop) : ExprTerm → ExprTerm → Prop
  | literal {v w} : V v w → ExprTerm.Alike V (.literal v) (.literal w)
  | null : ExprTerm.Alike V .null .null
  | column {table name} : ExprTerm.Alike V (.column table name) (.column table name)
  | parameter {name} : ExprTerm.Alike V (.parameter name) (.parameter name)
  | named {row row' name} : RowTerm.Alike V row row' →
      ExprTerm.Alike V (.named row name) (.named row' name)
  | qualified {row row' table name} : RowTerm.Alike V row row' →
      ExprTerm.Alike V (.qualified row table name) (.qualified row' table name)
  | field {row row' index} : RowTerm.Alike V row row' →
      ExprTerm.Alike V (.field row index) (.field row' index)
  | binary {op left left' right right'} : ExprTerm.Alike V left left' →
      ExprTerm.Alike V right right' →
      ExprTerm.Alike V (.binary op left right) (.binary op left' right')
  | unary {op operand operand'} : ExprTerm.Alike V operand operand' →
      ExprTerm.Alike V (.unary op operand) (.unary op operand')
  | compare {op left left' right right'} : ExprTerm.Alike V left left' →
      ExprTerm.Alike V right right' →
      ExprTerm.Alike V (.compare op left right) (.compare op left' right')
  | aggregate {func distinct operand operand'} : ExprTerm.Alike V operand operand' →
      ExprTerm.Alike V (.aggregate func distinct operand) (.aggregate func distinct operand')
  | countStar : ExprTerm.Alike V .countStar .countStar
  | case {condition condition' positive positive' negative negative'} :
      ExprTerm.Alike V condition condition' → ExprTerm.Alike V positive positive' →
      ExprTerm.Alike V negative negative' →
      ExprTerm.Alike V (.case condition positive negative) (.case condition' positive' negative')
  | like {value value' pattern pattern'} : ExprTerm.Alike V value value' →
      ExprTerm.Alike V pattern pattern' →
      ExprTerm.Alike V (.like value pattern) (.like value' pattern')
  | inList {needle needle' values values'} : ExprTerm.Alike V needle needle' →
      ExprTerm.AlikeAll V values values' →
      ExprTerm.Alike V (.inList needle values) (.inList needle' values')
  | inQuery {needle needle' query query'} : ExprTerm.Alike V needle needle' →
      Query.Alike V query query' →
      ExprTerm.Alike V (.inQuery needle query) (.inQuery needle' query')
  | over {row row' body body'} : RowTerm.Alike V row row' → ExprTerm.Alike V body body' →
      ExprTerm.Alike V (.over row body) (.over row' body')

inductive ExprTerm.AlikeAll (V : Value → Value → Prop) : List ExprTerm → List ExprTerm → Prop
  | nil : ExprTerm.AlikeAll V [] []
  | cons {t t' ts ts'} : ExprTerm.Alike V t t' → ExprTerm.AlikeAll V ts ts' →
      ExprTerm.AlikeAll V (t :: ts) (t' :: ts')

inductive RowTerm.Alike (V : Value → Value → Prop) : RowTerm → RowTerm → Prop
  | slot {up slot} : RowTerm.Alike V (.slot up slot) (.slot up slot)
  | absent : RowTerm.Alike V .absent .absent
  | tuple {rows rows'} : RowTerm.AlikeAll V rows rows' →
      RowTerm.Alike V (.tuple rows) (.tuple rows')
  | item {row row' index} : RowTerm.Alike V row row' →
      RowTerm.Alike V (.item row index) (.item row' index)
  | key {row row'} : RowTerm.Alike V row row' → RowTerm.Alike V (.key row) (.key row')
  | source {row row'} : RowTerm.Alike V row row' → RowTerm.Alike V (.source row) (.source row')
  | group {key key' source source'} : RowTerm.Alike V key key' → RowTerm.Alike V source source' →
      RowTerm.Alike V (.group key source) (.group key' source')
  | table {t} : RowTerm.Alike V (.table t) (.table t)
  | get {name} : RowTerm.Alike V (.get name) (.get name)
  | bind {name value value' body body'} : RowTerm.Alike V value value' →
      RowTerm.Alike V body body' → RowTerm.Alike V (.bind name value body) (.bind name value' body')
  | expr {e e'} : ExprTerm.Alike V e e' → RowTerm.Alike V (.expr e) (.expr e')

inductive RowTerm.AlikeAll (V : Value → Value → Prop) : List RowTerm → List RowTerm → Prop
  | nil : RowTerm.AlikeAll V [] []
  | cons {t t' ts ts'} : RowTerm.Alike V t t' → RowTerm.AlikeAll V ts ts' →
      RowTerm.AlikeAll V (t :: ts) (t' :: ts')

inductive SortTerm.AlikeAll (V : Value → Value → Prop) : List SortTerm → List SortTerm → Prop
  | nil : SortTerm.AlikeAll V [] []
  | cons {direction key key' ts ts'} : ExprTerm.Alike V key key' → SortTerm.AlikeAll V ts ts' →
      SortTerm.AlikeAll V (.mk direction key :: ts) (.mk direction key' :: ts')

inductive JoinTerm.AlikeAll (V : Value → Value → Prop) : List JoinTerm → List JoinTerm → Prop
  | nil : JoinTerm.AlikeAll V [] []
  | cons {kind table outer outer' inner inner' result result' aliases ts ts'} :
      ExprTerm.Alike V outer outer' → ExprTerm.Alike V inner inner' →
      RowTerm.Alike V result result' → JoinTerm.AlikeAll V ts ts' →
      JoinTerm.AlikeAll V (.mk kind table outer inner result aliases :: ts)
        (.mk kind table outer' inner' result' aliases :: ts')

inductive ExprTerm.AlikeOption (V : Value → Value → Prop) :
    Option ExprTerm → Option ExprTerm → Prop
  | none : ExprTerm.AlikeOption V none none
  | some {t t'} : ExprTerm.Alike V t t' → ExprTerm.AlikeOption V (some t) (some t')

inductive Query.Alike (V : Value → Value → Prop) : Query → Query → Prop
  | table {t} : Query.Alike V (.table t) (.table t)
  | derived {inner inner'} : Query.Alike V inner inner' →
      Query.Alike V (.derived inner) (.derived inner')
  | select {source source' stages stages' aliases} : Query.Alike V source source' →
      RowTerm.AlikeAll V stages stages' →
      Query.Alike V (.select source stages aliases) (.select source' stages' aliases)
  | filter {source source' predicate predicate'} : Query.Alike V source source' →
      ExprTerm.Alike V predicate predicate' →
      Query.Alike V (.filter source predicate) (.filter source' predicate')
  | orderBy {source source' keys keys'} : Query.Alike V source source' →
      SortTerm.AlikeAll V keys keys' → Query.Alike V (.orderBy source keys) (.orderBy source' keys')
  | groupBy {source source' keys keys' condition condition'} : Query.Alike V source source' →
      ExprTerm.AlikeAll V keys keys' → ExprTerm.AlikeOption V condition condition' →
      Query.Alike V (.groupBy source keys condition) (.groupBy source' keys' condition')
  | having {source source' predicate predicate'} : Query.Alike V source source' →
      ExprTerm.Alike V predicate predicate' →
      Query.Alike V (.having source predicate) (.having source' predicate')
  | join {source source' joins joins'} : Query.Alike V source source' →
      JoinTerm.AlikeAll V joins joins' → Query.Alike V (.join source joins) (.join source' joins')

end

variable {V : Value → Value → Prop}

/-! ## The number of subqueries -/

mutual

theorem ExprTerm.Alike.subqueries_eq :
    ∀ {t t' : ExprTerm}, t.Alike V t' → t.subqueries = t'.subqueries
  | _, _, .literal _ | _, _, .null | _, _, .column | _, _, .parameter | _, _, .countStar => rfl
  | _, _, .named h | _, _, .qualified h | _, _, .field h => h.subqueries_eq
  | _, _, .unary h | _, _, .aggregate h => h.subqueries_eq
  | _, _, .binary h₁ h₂ | _, _, .compare h₁ h₂ | _, _, .like h₁ h₂ => by
      simp [ExprTerm.subqueries, h₁.subqueries_eq, h₂.subqueries_eq]
  | _, _, .case h₁ h₂ h₃ => by
      simp [ExprTerm.subqueries, h₁.subqueries_eq, h₂.subqueries_eq, h₃.subqueries_eq]
  | _, _, .inList h₁ h₂ => by simp [ExprTerm.subqueries, h₁.subqueries_eq, h₂.subqueries_eq]
  | _, _, .inQuery h₁ h₂ => by simp [ExprTerm.subqueries, h₁.subqueries_eq, h₂.subqueries_eq]
  | _, _, .over h₁ h₂ => by simp [ExprTerm.subqueries, h₁.subqueries_eq, h₂.subqueries_eq]

theorem ExprTerm.AlikeAll.subqueries_eq :
    ∀ {ts ts' : List ExprTerm}, ExprTerm.AlikeAll V ts ts' →
      ExprTerm.subqueriesAll ts = ExprTerm.subqueriesAll ts'
  | _, _, .nil => rfl
  | _, _, .cons h₁ h₂ => by simp [ExprTerm.subqueriesAll, h₁.subqueries_eq, h₂.subqueries_eq]

theorem RowTerm.Alike.subqueries_eq :
    ∀ {t t' : RowTerm}, t.Alike V t' → t.subqueries = t'.subqueries
  | _, _, .slot | _, _, .absent | _, _, .table | _, _, .get => rfl
  | _, _, .tuple h => h.subqueries_eq
  | _, _, .item h | _, _, .key h | _, _, .source h => h.subqueries_eq
  | _, _, .group h₁ h₂ | _, _, .bind h₁ h₂ => by
      simp [RowTerm.subqueries, h₁.subqueries_eq, h₂.subqueries_eq]
  | _, _, .expr h => h.subqueries_eq

theorem RowTerm.AlikeAll.subqueries_eq :
    ∀ {ts ts' : List RowTerm}, RowTerm.AlikeAll V ts ts' →
      RowTerm.subqueriesAll ts = RowTerm.subqueriesAll ts'
  | _, _, .nil => rfl
  | _, _, .cons h₁ h₂ => by simp [RowTerm.subqueriesAll, h₁.subqueries_eq, h₂.subqueries_eq]

theorem SortTerm.AlikeAll.subqueries_eq :
    ∀ {ts ts' : List SortTerm}, SortTerm.AlikeAll V ts ts' →
      SortTerm.subqueriesAll ts = SortTerm.subqueriesAll ts'
  | _, _, .nil => rfl
  | _, _, .cons h₁ h₂ => by simp [SortTerm.subqueriesAll, h₁.subqueries_eq, h₂.subqueries_eq]

theorem JoinTerm.AlikeAll.subqueries_eq :
    ∀ {ts ts' : List JoinTerm}, JoinTerm.AlikeAll V ts ts' →
      JoinTerm.subqueriesAll ts = JoinTerm.subqueriesAll ts'
  | _, _, .nil => rfl
  | _, _, .cons h₁ h₂ h₃ h₄ => by
      simp [JoinTerm.subqueriesAll, h₁.subqueries_eq, h₂.subqueries_eq, h₃.subqueries_eq,
        h₄.subqueries_eq]

theorem ExprTerm.AlikeOption.subqueries_eq :
    ∀ {t t' : Option ExprTerm}, ExprTerm.AlikeOption V t t' →
      ExprTerm.subqueriesOption t = ExprTerm.subqueriesOption t'
  | _, _, .none => rfl
  | _, _, .some h => h.subqueries_eq

/-- Subqueries are counted by nodes, so there are as many on both sides. -/
theorem Query.Alike.subqueries_eq :
    ∀ {q q' : Query}, q.Alike V q' → q.subqueries = q'.subqueries
  | _, _, .table => rfl
  | _, _, .derived h => h.subqueries_eq
  | _, _, .select h₁ h₂ => by simp [Query.subqueries, h₁.subqueries_eq, h₂.subqueries_eq]
  | _, _, .filter h₁ h₂ => by simp [Query.subqueries, h₁.subqueries_eq, h₂.subqueries_eq]
  | _, _, .orderBy h₁ h₂ => by simp [Query.subqueries, h₁.subqueries_eq, h₂.subqueries_eq]
  | _, _, .groupBy h₁ h₂ h₃ => by
      simp [Query.subqueries, h₁.subqueries_eq, h₂.subqueries_eq, h₃.subqueries_eq]
  | _, _, .having h₁ h₂ => by simp [Query.subqueries, h₁.subqueries_eq, h₂.subqueries_eq]
  | _, _, .join h₁ h₂ => by simp [Query.subqueries, h₁.subqueries_eq, h₂.subqueries_eq]

end

/-! ## Normal forms -/

theorem RowTerm.AlikeAll.append {ss ss' ts ts' : List RowTerm} (hs : RowTerm.AlikeAll V ss ss')
    (ht : RowTerm.AlikeAll V ts ts') : RowTerm.AlikeAll V (ss ++ ts) (ss' ++ ts') :=
  match hs with
  | .nil => ht
  | .cons h hs => .cons h (hs.append ht)

theorem SortTerm.AlikeAll.append {ss ss' ts ts' : List SortTerm} (hs : SortTerm.AlikeAll V ss ss')
    (ht : SortTerm.AlikeAll V ts ts') : SortTerm.AlikeAll V (ss ++ ts) (ss' ++ ts') :=
  match hs with
  | .nil => ht
  | .cons h hs => .cons h (hs.append ht)

theorem JoinTerm.AlikeAll.append {ss ss' ts ts' : List JoinTerm} (hs : JoinTerm.AlikeAll V ss ss')
    (ht : JoinTerm.AlikeAll V ts ts') : JoinTerm.AlikeAll V (ss ++ ts) (ss' ++ ts') :=
  match hs with
  | .nil => ht
  | .cons h₁ h₂ h₃ hs => .cons h₁ h₂ h₃ (hs.append ht)

namespace Query.Alike

/-- A pass fires at the same place on both sides: which pair it fuses depends on the kinds of
clauses only. -/
theorem fuseOnce : ∀ {q q' : Query}, q.Alike V q' →
    q.fuseOnce.1.Alike V q'.fuseOnce.1 ∧ q.fuseOnce.2 = q'.fuseOnce.2
  | _, _, .table => ⟨.table, rfl⟩
  | _, _, .derived h => ⟨.derived h.fuseOnce.1, h.fuseOnce.2⟩
  | _, _, .filter h h₂ => by
      have ih := h.fuseOnce
      cases h with
      | filter h h₁ => exact ⟨.filter h (.binary h₁ h₂), rfl⟩
      | _ => exact ⟨.filter ih.1 h₂, ih.2⟩
  | _, _, .orderBy h h₂ => by
      have ih := h.fuseOnce
      cases h with
      | orderBy h h₁ => exact ⟨.orderBy h (h₁.append h₂), rfl⟩
      | _ => exact ⟨.orderBy ih.1 h₂, ih.2⟩
  | _, _, .select h h₂ => by
      have ih := h.fuseOnce
      cases h with
      | select h h₁ => exact ⟨.select h (h₁.append h₂), rfl⟩
      | _ => exact ⟨.select ih.1 h₂, ih.2⟩
  | _, _, .having h h₂ => by
      have ih := h.fuseOnce
      cases h with
      | groupBy h h₁ hc =>
          cases hc with
          | none => exact ⟨.groupBy h h₁ (.some h₂), rfl⟩
          | some hc => exact ⟨.having ih.1 h₂, ih.2⟩
      | _ => exact ⟨.having ih.1 h₂, ih.2⟩
  | _, _, .groupBy h h₁ h₂ => ⟨.groupBy h.fuseOnce.1 h₁ h₂, h.fuseOnce.2⟩
  | _, _, .join h h₂ => by
      have ih := h.fuseOnce
      cases h with
      | join h h₁ => exact ⟨.join h (h₁.append h₂), rfl⟩
      | _ => exact ⟨.join ih.1 h₂, ih.2⟩

theorem fused {q : Query} : ∀ {q' : Query}, q.Alike V q' → q.fused.Alike V q'.fused := by
  induction q using Query.passes_induction with
  | done q hq =>
      intro q' h
      have hq' : q'.fuseOnce.2 = false := h.fuseOnce.2 ▸ hq
      rw [Query.fused_of_unchanged hq, Query.fused_of_unchanged hq']
      exact h
  | pass q hq ih =>
      intro q' h
      have hq' : q'.fuseOnce.2 = true := h.fuseOnce.2 ▸ hq
      rw [Query.fused_of_changed hq, Query.fused_of_changed hq']
      exact ih h.fuseOnce.1

theorem rooted {q q' : Query} (h : q.Alike V q') : q.rooted.Alike V q'.rooted := by
  have hp : q.passThrough.Alike V q'.passThrough := .select h .nil
  cases h with
  | select h₁ h₂ => exact .select h₁ h₂
  | _ => exact hp

theorem normalize {q q' : Query} (h : q.Alike V q') : q.normalize.Alike V q'.normalize :=
  h.fused.rooted

theorem kind_eq {q q' : Query} (h : q.Alike V q') : q.kind = q'.kind := by
  cases h <;> rfl

end Query.Alike

theorem JoinTerm.AlikeAll.tables_eq : ∀ {ts ts' : List JoinTerm}, JoinTerm.AlikeAll V ts ts' →
    ts.map (fun j => j.table.name) = ts'.map (fun j => j.table.name)
  | _, _, .nil => rfl
  | _, _, .cons _ _ _ h => by
      rw [List.map_cons, List.map_cons, h.tables_eq]
      rfl

theorem Query.Alike.shape_eq : ∀ {q q' : Query}, q.Alike V q' → q.shape = q'.shape
  | _, _, .table => rfl
  | _, _, .derived h | _, _, .select h _ | _, _, .filter h _ | _, _, .orderBy h _
  | _, _, .having h _ | _, _, .groupBy h _ .none | _, _, .groupBy h _ (.some _) =>
      congrArg (_ ++ · ++ ")") h.shape_eq
  | _, _, .join h hj =>
      congrArg (fun names => "Join(" ++ String.intercalate ", " names ++ ")")
        (List.cons_eq_cons.mpr ⟨h.shape_eq, hj.tables_eq⟩)

/-! ## Blocks -/

structure Grouping.Alike (V : Value → Value → Prop) (g g' : Grouping) : Prop where
  keys : ExprTerm.AlikeAll V g.keys g'.keys
  having : ExprTerm.AlikeOption V g.having g'.having

structure Clauses.Alike (V : Value → Value → Prop) (c c' : Clauses) : Prop where
  joins : Option.Rel (JoinTerm.AlikeAll V) c.joins c'.joins
  filter : ExprTerm.AlikeOption V c.filter c'.filter
  grouping : Option.Rel (Grouping.Alike V) c.grouping c'.grouping
  order : Option.Rel (SortTerm.AlikeAll V) c.order c'.order

mutual

inductive Block.Alike (V : Value → Value → Prop) : Block → Block → Prop
  | mk {body body' clauses clauses' base base' stages stages' aliases} :
      Query.Alike V body body' → Clauses.Alike V clauses clauses' → Base.Alike V base base' →
      RowTerm.AlikeAll V stages stages' →
      Block.Alike V (.mk body clauses base stages aliases)
        (.mk body' clauses' base' stages' aliases)

inductive Base.Alike (V : Value → Value → Prop) : Base → Base → Prop
  | table {t} : Base.Alike V (.table t) (.table t)
  | derived {block block'} : Block.Alike V block block' →
      Base.Alike V (.derived block) (.derived block')
  | strayHaving {query query'} : Query.Alike V query query' →
      Base.Alike V (.strayHaving query) (.strayHaving query')

end

theorem Clauses.Alike.empty : Clauses.Alike V {} {} := ⟨.none, .none, .none, .none⟩

namespace Query

/-- What `layout` makes of a query is like what it makes of a query like it. -/
def LaidOutAlike (V : Value → Value → Prop) (content content' : Clauses × Base) : Prop :=
  Clauses.Alike V content.1 content'.1 ∧ Base.Alike V content.2 content'.2

theorem LaidOutAlike.statement {content content' : Clauses × Base}
    (h : LaidOutAlike V content content') {q q' : Query} (hq : q.Alike V q')
    {stages stages' : List RowTerm} (hs : RowTerm.AlikeAll V stages stages')
    (aliases : Option (List String)) :
    LaidOutAlike V ({}, .derived (.mk q content.1 content.2 stages aliases))
      ({}, .derived (.mk q' content'.1 content'.2 stages' aliases)) :=
  ⟨.empty, .derived (.mk hq h.1 h.2 hs)⟩

theorem LaidOutAlike.fit {content content' : Clauses × Base} (h : LaidOutAlike V content content')
    {q q' : Query} (hq : q.Alike V q') (here there : Place) :
    LaidOutAlike V (fit here there q content) (fit here there q' content') := by
  unfold Query.fit
  split
  · exact h
  · exact h.statement hq .nil none

theorem Alike.layout : ∀ {q q' : Query} (here : Place), q.Alike V q' →
    LaidOutAlike V (q.layout here) (q'.layout here)
  | _, _, _, .table => ⟨.empty, .table⟩
  | _, _, _, .derived h => by
      have ih := (h.layout .order).statement h .nil none
      cases h with
      | select h hs => exact (h.layout .order).statement h hs _
      | _ => exact ih
  | _, _, _, .select h hs => (h.layout .order).statement h hs _
  | _, _, here, .orderBy h hk => by
      obtain ⟨hc, hb⟩ := h.layout .grouping
      refine LaidOutAlike.fit ?_ (.orderBy h hk) here .order
      exact ⟨⟨hc.joins, hc.filter, hc.grouping, .some hk⟩, hb⟩
  | _, _, here, .groupBy h hk hp => by
      obtain ⟨hc, hb⟩ := h.layout .filter
      refine LaidOutAlike.fit ?_ (.groupBy h hk hp) here .grouping
      exact ⟨⟨hc.joins, hc.filter, .some ⟨hk, hp⟩, hc.order⟩, hb⟩
  | _, _, here, .filter h hp => by
      obtain ⟨hc, hb⟩ := h.layout .joins
      refine LaidOutAlike.fit ?_ (.filter h hp) here .filter
      exact ⟨⟨hc.joins, .some hp, hc.grouping, hc.order⟩, hb⟩
  | _, _, here, .join h hj => by
      obtain ⟨hc, hb⟩ := h.layout .base
      refine LaidOutAlike.fit ?_ (.join h hj) here .joins
      exact ⟨⟨.some hj, hc.filter, hc.grouping, hc.order⟩, hb⟩
  | _, _, _, .having h hp => ⟨.empty, .strayHaving (.having h hp)⟩

theorem Alike.block? {q q' : Query} (h : q.Alike V q') :
    Option.Rel (Block.Alike V) q.block? q'.block? := by
  cases h with
  | select h hs =>
      have hl := h.layout .order
      exact .some (.mk h hl.1 hl.2 hs)
  | _ => exact .none

end Query

end QueryCompiler
