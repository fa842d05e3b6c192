import QueryCompiler.Proofs.Forms
import QueryCompiler.Proofs.Scoping.Ledger

/-! # `QueryCompiler.Proofs.Scoping.Reads` — expressions over the fields on offer

An expression *reads* the given fields, in a ledger, if each of its nodes is registered under one of
them, or is not registered at all and its operands read them.  Such an expression holds no subquery.

A row is *flat* if no group hides any of its expressions: they are all found by flattening it.
-/

namespace QueryCompiler

/-! ## Expressions -/

/-- The expression is made of registered nodes, all under the given fields. -/
inductive Expr.Reads (l : Ledger) (fields : List Reference) : Expr → Prop
  | registered {e r} : l.read e.id = some r → r ∈ fields → Expr.Reads l fields e
  | built {e operands} : e.operands? = some operands → l.Given e.id → l.read e.id = none →
      (∀ o ∈ operands, Expr.Reads l fields o) → Expr.Reads l fields e

namespace Expr.Reads

variable {l l' : Ledger} {fields fields' : List Reference} {e : Expr}

theorem given (h : e.Reads l fields) : l.Given e.id := by
  cases h with
  | registered hr _ => exact l.given_of_read hr
  | built _ hg _ _ => exact hg

theorem of_read (h : e.Reads l fields) {r : Reference} (hr : l.read e.id = some r) :
    r ∈ fields := by
  cases h with
  | registered hr' hmem => exact Option.some.inj (hr'.symm.trans hr) ▸ hmem
  | built _ _ hnone _ => cases hnone.symm.trans hr

theorem of_unread (h : e.Reads l fields) (hr : l.read e.id = none) :
    ∃ operands, e.operands? = some operands ∧ ∀ o ∈ operands, o.Reads l fields := by
  cases h with
  | registered hr' _ => cases hr.symm.trans hr'
  | built ho _ _ h => exact ⟨_, ho, h⟩

/-- What reads the fields does so in every later ledger. -/
theorem grow (h : e.Reads l fields) (hl : l.Grows l') : e.Reads l' fields := by
  induction h with
  | registered hr hmem => exact .registered ((hl.read_eq (l.given_of_read hr)).trans hr) hmem
  | built ho hg hr _ ih => exact .built ho (hl.given hg) ((hl.read_eq hg).trans hr) ih

theorem widen (h : e.Reads l fields) (hf : fields ⊆ fields') : e.Reads l fields' := by
  induction h with
  | registered hr hmem => exact .registered hr (hf hmem)
  | built ho hg hr _ ih => exact .built ho hg hr ih

/-- A new node reads what its operands read. -/
theorem node {make : NodeId → Expr} {operands : List Expr} (hid : ∀ id, (make id).id = id)
    (ho : ∀ id, (make id).operands? = some operands) (h : ∀ o ∈ operands, o.Reads l fields) :
    Build.Grows l (fun l' e => e.Reads l' fields) (Build.node make) := by
  have hread : l.next.read l.nextId = none := l.read_eq_none l.not_given_nextId
  refine .node (.built (ho _) ?_ ?_ fun o hm => (h o hm).grow l.grows_next)
  · rw [hid]
    exact l.given_nextId
  · rw [hid]
    exact hread

end Expr.Reads

/-! ## Rows and scopes -/

/-- Every expression of the row has the property, and none is hidden in a group. -/
inductive Row.Flat (P : Expr → Prop) : Row → Prop
  | expr {e} : P e → Row.Flat P (.expr e)
  | tuple {rows} : (∀ row ∈ rows, Row.Flat P row) → Row.Flat P (.tuple rows)
  | table {t columns} : (∀ e ∈ columns, P e) → Row.Flat P (.table t columns)
  | absent : Row.Flat P .absent

namespace Row.Flat

variable {P P' : Expr → Prop} {row : Row}

mutual

theorem flatten : ∀ {row : Row}, row.Flat P → ∀ e ∈ row.flatten, P e
  | _, .expr h => List.forall_mem_singleton.2 h
  | _, .tuple h => flattenAll h
  | _, .table h => h
  | _, .absent => by simp [Row.flatten]

theorem flattenAll : ∀ {rows : List Row}, (∀ row ∈ rows, row.Flat P) →
    ∀ e ∈ Row.flattenAll rows, P e
  | [], _ => by simp [Row.flattenAll]
  | row :: _, h => by
      rw [Row.flattenAll, List.forall_mem_append]
      exact ⟨flatten (h row List.mem_cons_self),
        flattenAll fun row hr => h row (List.mem_cons_of_mem _ hr)⟩

end

mutual

/-- A flat row shows all its expressions when it is flattened. -/
theorem of_flatten : ∀ {row : Row}, row.Flat P → (∀ e ∈ row.flatten, P' e) → row.Flat P'
  | _, .expr _, h => .expr (List.forall_mem_singleton.1 h)
  | _, .tuple hr, h => .tuple (of_flattenAll hr h)
  | _, .table _, h => .table h
  | _, .absent, _ => .absent

theorem of_flattenAll : ∀ {rows : List Row}, (∀ row ∈ rows, row.Flat P) →
    (∀ e ∈ Row.flattenAll rows, P' e) → ∀ row ∈ rows, row.Flat P'
  | [], _, _ => by simp
  | row :: _, hr, h => by
      rw [Row.flattenAll, List.forall_mem_append] at h
      exact List.forall_mem_cons.2 ⟨of_flatten (hr row List.mem_cons_self) h.1,
        of_flattenAll (fun row hm => hr row (List.mem_cons_of_mem _ hm)) h.2⟩

end

theorem mono (h : row.Flat P) (hp : ∀ e, P e → P' e) : row.Flat P' :=
  h.of_flatten fun e he => hp e (h.flatten e he)

theorem find? (h : row.Flat P) {table : Option String} {name : String} :
    ∀ e ∈ row.find? table name, P e := by
  intro e he
  have hmem : e ∈ row.flatten := by
    cases h <;> exact List.mem_of_find?_eq_some he
  exact h.flatten e hmem

theorem item (h : row.Flat P) (i : Nat) : (row.item i).Flat P := by
  cases h with
  | expr he =>
      cases i with
      | zero => exact .expr he
      | succ => exact .absent
  | @tuple rows hr =>
      show (rows.getD i .absent).Flat P
      rw [List.getD_eq_getElem?_getD]
      cases hi : rows[i]? with
      | none => exact .absent
      | some row => exact hr row (List.mem_of_getElem? hi)
  | @table t columns hc =>
      show ((columns[i]?.map Row.expr).getD .absent).Flat P
      cases hi : columns[i]? with
      | none => exact .absent
      | some e => exact .expr (hc e (List.mem_of_getElem? hi))
  | absent => exact .absent

theorem key_eq (h : row.Flat P) : row.key = row := by cases h <;> rfl

theorem source_eq (h : row.Flat P) : row.source = row := by cases h <;> rfl

end Row.Flat

inductive Entry.Flat (P : Expr → Prop) : Entry → Prop
  | named {name row} : Row.Flat P row → Entry.Flat P (.named name row)
  | clause {row} : Row.Flat P row → Entry.Flat P (.clause row)
  | joined {outer inner} : Row.Flat P outer → Row.Flat P inner → Entry.Flat P (.joined outer inner)

theorem Entry.Flat.slot {P : Expr → Prop} {entry : Entry} (h : entry.Flat P) (s : Slot) :
    (entry.slot s).Flat P := by
  cases h with
  | named => exact .absent
  | clause hr =>
      cases s with
      | row => exact hr
      | _ => exact .absent
  | joined ho hi =>
      cases s with
      | row => exact .absent
      | outer => exact ho
      | inner => exact hi

def Scope.Flat (P : Expr → Prop) (scope : Scope) : Prop := ∀ entry ∈ scope, entry.Flat P

namespace Scope.Flat

variable {P P' : Expr → Prop} {scope : Scope}

theorem cons {entry : Entry} (h : Scope.Flat P scope) (he : entry.Flat P) :
    Scope.Flat P (entry :: scope) :=
  List.forall_mem_cons.2 ⟨he, h⟩

theorem mono (h : Scope.Flat P scope) (hp : ∀ e, P e → P' e) : Scope.Flat P' scope := by
  intro entry hm
  cases h entry hm with
  | named hr => exact .named (hr.mono hp)
  | clause hr => exact .clause (hr.mono hp)
  | joined ho hi => exact .joined (ho.mono hp) (hi.mono hp)

theorem slot : ∀ {scope : Scope}, Scope.Flat P scope → ∀ (n : Nat) (s : Slot),
    (Scope.slot scope n s).Flat P
  | [], _, _, _ => .absent
  | .named .. :: _, h, n, s => slot (List.forall_mem_cons.1 h).2 n s
  | .clause _ :: _, h, 0, s => (List.forall_mem_cons.1 h).1.slot s
  | .joined .. :: _, h, 0, s => (List.forall_mem_cons.1 h).1.slot s
  | .clause _ :: _, h, n + 1, s => slot (List.forall_mem_cons.1 h).2 n s
  | .joined .. :: _, h, n + 1, s => slot (List.forall_mem_cons.1 h).2 n s

theorem get : ∀ {scope : Scope}, Scope.Flat P scope → ∀ name : String,
    (Scope.get scope name).Flat P
  | [], _, _ => .absent
  | .named n row :: _, h, name => by
      rw [Scope.get]
      split
      · cases h (.named n row) List.mem_cons_self with
        | named hr => exact hr
      · exact get (List.forall_mem_cons.1 h).2 name
  | .clause _ :: _, h, name => get (List.forall_mem_cons.1 h).2 name
  | .joined .. :: _, h, name => get (List.forall_mem_cons.1 h).2 name

end Scope.Flat

/-! ## Later ledgers -/

section

variable {l l' : Ledger} {fields fields' : List Reference}

theorem Row.Flat.grow {row : Row} (h : row.Flat (Expr.Reads l fields)) (hl : l.Grows l') :
    row.Flat (Expr.Reads l' fields) :=
  h.mono fun _ he => he.grow hl

theorem Row.Flat.widen {row : Row} (h : row.Flat (Expr.Reads l fields)) (hf : fields ⊆ fields') :
    row.Flat (Expr.Reads l fields') :=
  h.mono fun _ he => he.widen hf

theorem Scope.Flat.grow {scope : Scope} (h : Scope.Flat (Expr.Reads l fields) scope)
    (hl : l.Grows l') : Scope.Flat (Expr.Reads l' fields) scope :=
  h.mono fun _ he => he.grow hl

end

end QueryCompiler
