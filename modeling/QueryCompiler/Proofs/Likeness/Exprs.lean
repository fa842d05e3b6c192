import QueryCompiler.Clause.Eval
import QueryCompiler.Proofs.Likeness.Terms

/-! # `QueryCompiler.Proofs.Likeness.Exprs` — what alike terms build

Expressions, rows and scopes of two runs are compared under a *matching*: a relation on the
identities of nodes, one to one where it holds, and a relation on the values of literals that keeps
null apart.  With equality on identities both runs share their nodes; with equality on values both
runs bind the same ones.

Evaluation runs in step.  From supplies that hand out matched identities and in alike scopes, alike
terms take equally many identities and build alike expressions:

    t like t'    Γ like Γ'    s like s'
    ------------------------------------
    (t.eval Γ) s   like   (t'.eval Γ') s'
-/

namespace QueryCompiler

/-- Which identities and which values stand for each other in two runs. -/
structure Matching where
  ids : NodeId → NodeId → Prop
  values : Value → Value → Prop
  ids_unique : ∀ {a b a' b'}, ids a a' → ids b b' → (a = b ↔ a' = b')
  values_null : ∀ {v w}, values v w → v.isNull = w.isNull

mutual

/-- The expressions agree up to matched identities and matched literals. -/
inductive Expr.Alike (M : Matching) : Expr → Expr → Prop
  | literal {i i' v w} : M.ids i i' → M.values v w → Expr.Alike M (.literal i v) (.literal i' w)
  | null {i i'} : M.ids i i' → Expr.Alike M (.null i) (.null i')
  | column {i i' table name} : M.ids i i' →
      Expr.Alike M (.column i table name) (.column i' table name)
  | parameter {i i' name} : M.ids i i' → Expr.Alike M (.parameter i name) (.parameter i' name)
  | binary {i i' op left left' right right'} : M.ids i i' → Expr.Alike M left left' →
      Expr.Alike M right right' →
      Expr.Alike M (.binary i op left right) (.binary i' op left' right')
  | unary {i i' op operand operand'} : M.ids i i' → Expr.Alike M operand operand' →
      Expr.Alike M (.unary i op operand) (.unary i' op operand')
  | compare {i i' op left left' right right'} : M.ids i i' → Expr.Alike M left left' →
      Expr.Alike M right right' →
      Expr.Alike M (.compare i op left right) (.compare i' op left' right')
  | aggregate {i i' func distinct operand operand'} : M.ids i i' → Expr.Alike M operand operand' →
      Expr.Alike M (.aggregate i func distinct operand) (.aggregate i' func distinct operand')
  | countStar {i i'} : M.ids i i' → Expr.Alike M (.countStar i) (.countStar i')
  | case {i i' condition condition' positive positive' negative negative'} : M.ids i i' →
      Expr.Alike M condition condition' → Expr.Alike M positive positive' →
      Expr.Alike M negative negative' →
      Expr.Alike M (.case i condition positive negative) (.case i' condition' positive' negative')
  | like {i i' value value' pattern pattern'} : M.ids i i' → Expr.Alike M value value' →
      Expr.Alike M pattern pattern' →
      Expr.Alike M (.like i value pattern) (.like i' value' pattern')
  | inList {i i' needle needle' values values'} : M.ids i i' → Expr.Alike M needle needle' →
      Expr.AlikeAll M values values' →
      Expr.Alike M (.inList i needle values) (.inList i' needle' values')
  | inQuery {i i' needle needle' query query' scope scope'} : M.ids i i' →
      Expr.Alike M needle needle' → Query.Alike M.values query query' →
      Entry.AlikeAll M scope scope' →
      Expr.Alike M (.inQuery i needle query scope) (.inQuery i' needle' query' scope')
  | unknown {i i' name} : M.ids i i' → Expr.Alike M (.unknown i name) (.unknown i' name)

inductive Expr.AlikeAll (M : Matching) : List Expr → List Expr → Prop
  | nil : Expr.AlikeAll M [] []
  | cons {e e' es es'} : Expr.Alike M e e' → Expr.AlikeAll M es es' →
      Expr.AlikeAll M (e :: es) (e' :: es')

inductive Row.Alike (M : Matching) : Row → Row → Prop
  | expr {e e'} : Expr.Alike M e e' → Row.Alike M (.expr e) (.expr e')
  | tuple {rows rows'} : Row.AlikeAll M rows rows' → Row.Alike M (.tuple rows) (.tuple rows')
  | table {t columns columns'} : Expr.AlikeAll M columns columns' →
      Row.Alike M (.table t columns) (.table t columns')
  | group {key key' source source'} : Row.Alike M key key' → Row.Alike M source source' →
      Row.Alike M (.group key source) (.group key' source')
  | absent : Row.Alike M .absent .absent

inductive Row.AlikeAll (M : Matching) : List Row → List Row → Prop
  | nil : Row.AlikeAll M [] []
  | cons {row row' rows rows'} : Row.Alike M row row' → Row.AlikeAll M rows rows' →
      Row.AlikeAll M (row :: rows) (row' :: rows')

inductive Entry.Alike (M : Matching) : Entry → Entry → Prop
  | named {name row row'} : Row.Alike M row row' →
      Entry.Alike M (.named name row) (.named name row')
  | clause {row row'} : Row.Alike M row row' → Entry.Alike M (.clause row) (.clause row')
  | joined {outer outer' inner inner'} : Row.Alike M outer outer' → Row.Alike M inner inner' →
      Entry.Alike M (.joined outer inner) (.joined outer' inner')

inductive Entry.AlikeAll (M : Matching) : List Entry → List Entry → Prop
  | nil : Entry.AlikeAll M [] []
  | cons {entry entry' entries entries'} : Entry.Alike M entry entry' →
      Entry.AlikeAll M entries entries' → Entry.AlikeAll M (entry :: entries) (entry' :: entries')

end

abbrev Scope.Alike (M : Matching) (scope scope' : Scope) : Prop := Entry.AlikeAll M scope scope'

variable {M : Matching}

/-! ## Reading nodes and rows -/

theorem Expr.Alike.id {e e' : Expr} (h : e.Alike M e') : M.ids e.id e'.id := by
  cases h <;> assumption

theorem Expr.Alike.isColumn_eq {e e' : Expr} (h : e.Alike M e') : e.isColumn = e'.isColumn := by
  cases h <;> rfl

theorem Expr.Alike.isColumnNamed_eq {e e' : Expr} (h : e.Alike M e') (table : Option String)
    (name : String) : e.isColumnNamed table name = e'.isColumnNamed table name := by
  cases h <;> rfl

theorem Expr.Alike.isNullLiteral_eq {e e' : Expr} (h : e.Alike M e') :
    e.isNullLiteral = e'.isNullLiteral := by
  cases h with
  | literal _ hv => exact M.values_null hv
  | _ => rfl

namespace Expr.AlikeAll

theorem length_eq : ∀ {es es' : List Expr}, Expr.AlikeAll M es es' → es.length = es'.length
  | _, _, .nil => rfl
  | _, _, .cons _ h => congrArg (· + 1) h.length_eq

theorem append : ∀ {es es' fs fs' : List Expr}, Expr.AlikeAll M es es' → Expr.AlikeAll M fs fs' →
    Expr.AlikeAll M (es ++ fs) (es' ++ fs')
  | _, _, _, _, .nil, hf => hf
  | _, _, _, _, .cons h he, hf => .cons h (he.append hf)

theorem getElem? : ∀ {es es' : List Expr} (i : Nat), Expr.AlikeAll M es es' →
    Option.Rel (Expr.Alike M) es[i]? es'[i]?
  | _, _, _, .nil => .none
  | _, _, 0, .cons h _ => .some h
  | _, _, i + 1, .cons _ h => by simpa using h.getElem? i

theorem find? {p p' : Expr → Bool} (hp : ∀ {e e'}, Expr.Alike M e e' → p e = p' e') :
    ∀ {es es' : List Expr}, Expr.AlikeAll M es es' →
      Option.Rel (Expr.Alike M) (es.find? p) (es'.find? p')
  | _, _, .nil => .none
  | e :: _, _, .cons h hs => by
      rw [List.find?_cons, List.find?_cons, ← hp h]
      cases p e with
      | true => exact .some h
      | false => exact hs.find? hp

end Expr.AlikeAll

namespace Row

theorem AlikeAll.getD : ∀ {rows rows' : List Row} (i : Nat), Row.AlikeAll M rows rows' →
    Row.Alike M (rows.getD i .absent) (rows'.getD i .absent)
  | _, _, _, .nil => .absent
  | _, _, 0, .cons h _ => h
  | _, _, i + 1, .cons _ h => by simpa using h.getD i

mutual

theorem Alike.flatten : ∀ {row row' : Row}, row.Alike M row' →
    Expr.AlikeAll M row.flatten row'.flatten
  | _, _, .expr h => .cons h .nil
  | _, _, .tuple h => h.flattenAll
  | _, _, .table h => h
  | _, _, .group h _ => h.flatten
  | _, _, .absent => .nil

theorem AlikeAll.flattenAll : ∀ {rows rows' : List Row}, Row.AlikeAll M rows rows' →
    Expr.AlikeAll M (flattenAll rows) (flattenAll rows')
  | _, _, .nil => .nil
  | _, _, .cons h hs => h.flatten.append hs.flattenAll

end

theorem Alike.ofFound {e e' : Option Expr} (h : Option.Rel (Expr.Alike M) e e') :
    Row.Alike M ((e.map Row.expr).getD .absent) ((e'.map Row.expr).getD .absent) := by
  cases h with
  | some h => exact .expr h
  | none => exact .absent

theorem Alike.item : ∀ {row row' : Row} (i : Nat), row.Alike M row' →
    (row.item i).Alike M (row'.item i)
  | _, _, i, .tuple h => h.getD i
  | _, _, i, .table h => Alike.ofFound (h.getElem? i)
  | _, _, 0, .expr h => .expr h
  | _, _, _ + 1, .expr _ => .absent
  | _, _, i, .group h _ => by simpa only [Row.item] using h.item i
  | _, _, _, .absent => .absent

theorem Alike.key {row row' : Row} (h : row.Alike M row') : row.key.Alike M row'.key := by
  cases h with
  | expr h => exact .expr h
  | tuple h => exact .tuple h
  | table h => exact .table h
  | group hk _ => exact hk
  | absent => exact .absent

theorem Alike.source {row row' : Row} (h : row.Alike M row') : row.source.Alike M row'.source := by
  cases h with
  | expr h => exact .expr h
  | tuple h => exact .tuple h
  | table h => exact .table h
  | group _ hs => exact hs
  | absent => exact .absent

theorem found_or {a a' b b' : Option Expr} (ha : Option.Rel (Expr.Alike M) a a')
    (hb : Option.Rel (Expr.Alike M) b b') : Option.Rel (Expr.Alike M) (a.or b) (a'.or b') := by
  cases ha with
  | some h => exact .some h
  | none => exact hb

/-- A lookup by name asks for the names of columns, which agree. -/
theorem Alike.find? (table : Option String) (name : String) : ∀ {row row' : Row},
    row.Alike M row' → Option.Rel (Expr.Alike M) (row.find? table name) (row'.find? table name)
  | _, _, .group hk hs => found_or (hk.find? table name) (hs.find? table name)
  | .expr _, _, .expr h =>
      (Row.Alike.expr h).flatten.find? fun h => h.isColumnNamed_eq table name
  | .tuple _, _, .tuple h =>
      (Row.Alike.tuple h).flatten.find? fun h => h.isColumnNamed_eq table name
  | .table _ _, _, .table h =>
      (Row.Alike.table h).flatten.find? fun h => h.isColumnNamed_eq table name
  | _, _, .absent => .none

end Row

/-! ## Reading scopes -/

theorem Entry.Alike.slot {entry entry' : Entry} (h : entry.Alike M entry') (s : Slot) :
    (entry.slot s).Alike M (entry'.slot s) := by
  cases h with
  | named _ => exact .absent
  | clause h => cases s <;> first | exact h | exact .absent
  | joined ho hi =>
      cases s with
      | row => exact .absent
      | outer => exact ho
      | inner => exact hi

namespace Scope.Alike

theorem slot : ∀ {scope scope' : Scope} (n : Nat) (s : Slot), Scope.Alike M scope scope' →
    (Scope.slot scope n s).Alike M (Scope.slot scope' n s)
  | _, _, _, _, .nil => .absent
  | _, _, n, s, .cons (.named _) hs => by simpa only [Scope.slot] using slot n s hs
  | _, _, 0, s, .cons (.clause h) _ => (Entry.Alike.clause h).slot s
  | _, _, 0, s, .cons (.joined ho hi) _ => (Entry.Alike.joined ho hi).slot s
  | _, _, n + 1, s, .cons (.clause _) hs => slot n s hs
  | _, _, n + 1, s, .cons (.joined _ _) hs => slot n s hs

theorem get (name : String) : ∀ {scope scope' : Scope}, Scope.Alike M scope scope' →
    (Scope.get scope name).Alike M (Scope.get scope' name)
  | _, _, .nil => .absent
  | .named n _ :: _, _, .cons (.named h) hs => by
      by_cases hn : n = name
      · simpa [Scope.get, hn] using h
      · simpa [Scope.get, hn] using get name hs
  | _, _, .cons (.clause _) hs => by simpa only [Scope.get] using get name hs
  | _, _, .cons (.joined _ _) hs => by simpa only [Scope.get] using get name hs

end Scope.Alike

mutual

theorem Expr.Alike.nesting_eq : ∀ {e e' : Expr}, e.Alike M e' → e.nesting = e'.nesting
  | _, _, .literal .. | _, _, .null _ | _, _, .column _ | _, _, .parameter _ | _, _, .countStar _
  | _, _, .unknown _ => rfl
  | _, _, .unary _ h | _, _, .aggregate _ h => h.nesting_eq
  | _, _, .binary _ h₁ h₂ | _, _, .compare _ h₁ h₂ | _, _, .like _ h₁ h₂ => by
      simp only [Expr.nesting, h₁.nesting_eq, h₂.nesting_eq]
  | _, _, .case _ h₁ h₂ h₃ => by
      simp only [Expr.nesting, h₁.nesting_eq, h₂.nesting_eq, h₃.nesting_eq]
  | _, _, .inList _ h₁ h₂ => by simp only [Expr.nesting, h₁.nesting_eq, h₂.nesting_eq]
  | _, _, .inQuery _ h hq hs => by
      simp only [Expr.nesting, h.nesting_eq, hq.subqueries_eq, hs.nesting_eq]

theorem Expr.AlikeAll.nesting_eq : ∀ {es es' : List Expr}, Expr.AlikeAll M es es' →
    Expr.nestingAll es = Expr.nestingAll es'
  | _, _, .nil => rfl
  | _, _, .cons h hs => by simp only [Expr.nestingAll, h.nesting_eq, hs.nesting_eq]

theorem Row.Alike.nesting_eq : ∀ {row row' : Row}, row.Alike M row' → row.nesting = row'.nesting
  | _, _, .expr h => h.nesting_eq
  | _, _, .tuple h => h.nesting_eq
  | _, _, .table h => h.nesting_eq
  | _, _, .group h₁ h₂ => by simp only [Row.nesting, h₁.nesting_eq, h₂.nesting_eq]
  | _, _, .absent => rfl

theorem Row.AlikeAll.nesting_eq : ∀ {rows rows' : List Row}, Row.AlikeAll M rows rows' →
    Row.nestingAll rows = Row.nestingAll rows'
  | _, _, .nil => rfl
  | _, _, .cons h hs => by simp only [Row.nestingAll, h.nesting_eq, hs.nesting_eq]

theorem Entry.Alike.nesting_eq : ∀ {entry entry' : Entry}, entry.Alike M entry' →
    entry.nesting = entry'.nesting
  | _, _, .named h => h.nesting_eq
  | _, _, .clause h => h.nesting_eq
  | _, _, .joined h₁ h₂ => by simp only [Entry.nesting, h₁.nesting_eq, h₂.nesting_eq]

theorem Entry.AlikeAll.nesting_eq : ∀ {entries entries' : List Entry},
    Entry.AlikeAll M entries entries' → Entry.nestingAll entries = Entry.nestingAll entries'
  | _, _, .nil => rfl
  | _, _, .cons h hs => by simp only [Entry.nestingAll, h.nesting_eq, hs.nesting_eq]

end

/-! ## Building in step -/

/-- The identities still to be handed out, in order. -/
def Supply.upcoming (s : Supply) (n : Nat) : NodeId := s.ids (n + s.used)

/-- The identities still to be handed out match, turn by turn. -/
def Supply.Alike (M : Matching) (s s' : Supply) : Prop :=
  ∀ n, M.ids (s.upcoming n) (s'.upcoming n)

theorem Supply.upcoming_next (s : Supply) (n : Nat) :
    (⟨s.ids, s.used + 1⟩ : Supply).upcoming n = s.upcoming (n + 1) :=
  congrArg s.ids (Nat.succ_add n s.used).symm

/-- From alike supplies both computations come to related results and alike supplies. -/
def Build.InStep (M : Matching) {α β : Type} (A : α → β → Prop) (b : Build α) (b' : Build β) :
    Prop :=
  ∀ s s' : Supply, s.Alike M s' → A (b s).1 (b' s').1 ∧ (b s).2.Alike M (b' s').2

namespace Build.InStep

variable {α β γ δ : Type} {A : α → β → Prop} {B : γ → δ → Prop}

protected theorem pure {a : α} {a' : β} (h : A a a') :
    Build.InStep M A (pure a) (pure a') :=
  fun _ _ hs => ⟨h, hs⟩

protected theorem bind {b : Build α} {b' : Build β} {f : α → Build γ} {f' : β → Build δ}
    (hb : Build.InStep M A b b') (hf : ∀ {a a'}, A a a' → Build.InStep M B (f a) (f' a')) :
    Build.InStep M B (b >>= f) (b' >>= f') :=
  fun s s' hs => hf (hb s s' hs).1 _ _ (hb s s' hs).2

theorem node {make : NodeId → α} {make' : NodeId → β}
    (h : ∀ {i i'}, M.ids i i' → A (make i) (make' i')) :
    Build.InStep M A (Build.node make) (Build.node make') := by
  intro s s' hs
  have h₀ : M.ids (s.ids s.used) (s'.ids s'.used) := by
    simpa only [Supply.upcoming, Nat.zero_add] using hs 0
  refine ⟨h h₀, fun n => ?_⟩
  show M.ids ((⟨s.ids, s.used + 1⟩ : Supply).upcoming n) ((⟨s'.ids, s'.used + 1⟩ : Supply).upcoming n)
  rw [Supply.upcoming_next, Supply.upcoming_next]
  exact hs (n + 1)

end Build.InStep

theorem Row.orUnknown_inStep {e e' : Option Expr} (h : Option.Rel (Expr.Alike M) e e')
    (name : String) :
    Build.InStep M (Expr.Alike M) (Row.orUnknown e name) (Row.orUnknown e' name) := by
  cases h with
  | some h => exact .pure h
  | none => exact .node .unknown

theorem Table.columnNodes_inStep (table : String) : ∀ names : List String,
    Build.InStep M (Expr.AlikeAll M) (Table.columnNodes table names)
      (Table.columnNodes table names)
  | [] => .pure .nil
  | _ :: names =>
      (Build.InStep.node .column).bind fun h =>
        (columnNodes_inStep table names).bind fun hs => .pure (.cons h hs)

theorem Table.instantiate_inStep (t : Table) :
    Build.InStep M (Expr.AlikeAll M) t.instantiate t.instantiate :=
  columnNodes_inStep t.name t.columns

mutual

/-- Alike terms in alike scopes build alike expressions, in step. -/
theorem ExprTerm.Alike.eval : ∀ {t t' : ExprTerm} {scope scope' : Scope},
    t.Alike M.values t' → Scope.Alike M scope scope' →
      Build.InStep M (Expr.Alike M) (t.eval scope) (t'.eval scope')
  | _, _, _, _, .literal hv, _ => .node fun hi => .literal hi hv
  | _, _, _, _, .null, _ => .node .null
  | _, _, _, _, .column, _ => .node .column
  | _, _, _, _, .parameter, _ => .node .parameter
  | _, _, _, _, .countStar, _ => .node .countStar
  | _, _, _, _, @ExprTerm.Alike.named _ _ _ name h, hs =>
      (h.eval hs).bind fun hr => Row.orUnknown_inStep (hr.find? none name) name
  | _, _, _, _, @ExprTerm.Alike.qualified _ _ _ table name h, hs =>
      (h.eval hs).bind fun hr => Row.orUnknown_inStep (hr.find? (some table) name) _
  | _, _, _, _, @ExprTerm.Alike.field _ _ _ index h, hs =>
      (h.eval hs).bind fun hr => Row.orUnknown_inStep (hr.flatten.getElem? index) _
  | _, _, _, _, .binary h₁ h₂, hs =>
      (h₁.eval hs).bind fun hl => (h₂.eval hs).bind fun hr => .node fun hi => .binary hi hl hr
  | _, _, _, _, .unary h, hs => (h.eval hs).bind fun ho => .node fun hi => .unary hi ho
  | _, _, _, _, .compare h₁ h₂, hs =>
      (h₁.eval hs).bind fun hl => (h₂.eval hs).bind fun hr => .node fun hi => .compare hi hl hr
  | _, _, _, _, .aggregate h, hs => (h.eval hs).bind fun ho => .node fun hi => .aggregate hi ho
  | _, _, _, _, .case h₁ h₂ h₃, hs =>
      (h₁.eval hs).bind fun hc => (h₂.eval hs).bind fun hp => (h₃.eval hs).bind fun hn =>
        .node fun hi => .case hi hc hp hn
  | _, _, _, _, .like h₁ h₂, hs =>
      (h₁.eval hs).bind fun hv => (h₂.eval hs).bind fun hp => .node fun hi => .like hi hv hp
  | _, _, _, _, .inList h₁ h₂, hs =>
      (h₁.eval hs).bind fun hn => (h₂.evalAll hs).bind fun hv => .node fun hi => .inList hi hn hv
  | _, _, _, _, .inQuery h₁ h₂, hs =>
      (h₁.eval hs).bind fun hn => .node fun hi => .inQuery hi hn h₂ hs
  | _, _, _, _, .over h₁ h₂, hs =>
      (h₁.eval hs).bind fun hr => h₂.eval (.cons (.clause hr) hs)

theorem ExprTerm.AlikeAll.evalAll : ∀ {ts ts' : List ExprTerm} {scope scope' : Scope},
    ExprTerm.AlikeAll M.values ts ts' → Scope.Alike M scope scope' →
      Build.InStep M (Expr.AlikeAll M) (ExprTerm.evalAll ts scope) (ExprTerm.evalAll ts' scope')
  | _, _, _, _, .nil, _ => .pure .nil
  | _, _, _, _, .cons h ht, hs =>
      (h.eval hs).bind fun he => (ht.evalAll hs).bind fun hes => .pure (.cons he hes)

theorem RowTerm.Alike.eval : ∀ {t t' : RowTerm} {scope scope' : Scope},
    t.Alike M.values t' → Scope.Alike M scope scope' →
      Build.InStep M (Row.Alike M) (t.eval scope) (t'.eval scope')
  | _, _, _, _, .slot, hs => .pure (Scope.Alike.slot _ _ hs)
  | _, _, _, _, .absent, _ => .pure .absent
  | _, _, _, _, .tuple h, hs => (h.evalAll hs).bind fun hr => .pure (.tuple hr)
  | _, _, _, _, .item h, hs => (h.eval hs).bind fun hr => .pure (hr.item _)
  | _, _, _, _, .key h, hs => (h.eval hs).bind fun hr => .pure hr.key
  | _, _, _, _, .source h, hs => (h.eval hs).bind fun hr => .pure hr.source
  | _, _, _, _, .group h₁ h₂, hs =>
      (h₁.eval hs).bind fun hk => (h₂.eval hs).bind fun hr => .pure (.group hk hr)
  | _, _, _, _, @RowTerm.Alike.table _ t, _ =>
      t.instantiate_inStep.bind fun hc => .pure (.table hc)
  | _, _, _, _, .get, hs => .pure (Scope.Alike.get _ hs)
  | _, _, _, _, .bind h₁ h₂, hs =>
      (h₁.eval hs).bind fun hv => h₂.eval (.cons (.named hv) hs)
  | _, _, _, _, .expr h, hs => (h.eval hs).bind fun he => .pure (.expr he)

theorem RowTerm.AlikeAll.evalAll : ∀ {ts ts' : List RowTerm} {scope scope' : Scope},
    RowTerm.AlikeAll M.values ts ts' → Scope.Alike M scope scope' →
      Build.InStep M (Row.AlikeAll M) (RowTerm.evalAll ts scope) (RowTerm.evalAll ts' scope')
  | _, _, _, _, .nil, _ => .pure .nil
  | _, _, _, _, .cons h ht, hs =>
      (h.eval hs).bind fun hr => (ht.evalAll hs).bind fun hrs => .pure (.cons hr hrs)

end

theorem RowTerm.AlikeAll.runStages {scope scope' : Scope} (hs : Scope.Alike M scope scope') :
    ∀ {ts ts' : List RowTerm} {row row' : Row}, RowTerm.AlikeAll M.values ts ts' →
      row.Alike M row' → Build.InStep M (Row.Alike M) (RowTerm.runStages scope ts row)
        (RowTerm.runStages scope' ts' row')
  | _, _, _, _, .nil, hr => .pure hr
  | _, _, _, _, .cons h ht, hr =>
      (h.eval (.cons (.clause hr) hs)).bind fun hr => ht.runStages hs hr

end QueryCompiler
