import QueryCompiler.Clause.Eval

/-! # `QueryCompiler.Proofs.Leaves` — the expressions within reach of a row

The leaves of a row are all expressions it holds, those of a grouped source included.  However a row
or a scope is read, what is found is one of its leaves.
-/

namespace QueryCompiler

mutual

/-- All expressions that a row holds. -/
def Row.leaves : Row → List Expr
  | .expr e => [e]
  | .tuple rows => Row.leavesAll rows
  | .table _ columns => columns
  | .group key source => key.leaves ++ source.leaves
  | .absent => []

def Row.leavesAll : List Row → List Expr
  | [] => []
  | row :: rows => row.leaves ++ Row.leavesAll rows

end

def Entry.leaves : Entry → List Expr
  | .named _ row => row.leaves
  | .clause row => row.leaves
  | .joined outer inner => outer.leaves ++ inner.leaves

def Scope.leaves (scope : Scope) : List Expr := scope.flatMap Entry.leaves

/-! ## Reading a row -/

namespace Row

mutual

theorem flatten_subset : ∀ row : Row, row.flatten ⊆ row.leaves
  | .expr _ | .table .. | .absent => List.Subset.refl _
  | .tuple rows => flattenAll_subset rows
  | .group key _ => List.subset_append_of_subset_left _ key.flatten_subset

theorem flattenAll_subset : ∀ rows : List Row, flattenAll rows ⊆ leavesAll rows
  | [] => List.Subset.refl _
  | row :: rows =>
      List.append_subset.2 ⟨List.subset_append_of_subset_left _ row.flatten_subset,
        List.subset_append_of_subset_right _ (flattenAll_subset rows)⟩

end

theorem leavesAll_map_expr : ∀ es : List Expr, leavesAll (es.map .expr) = es
  | [] => rfl
  | e :: es => congrArg (e :: ·) (leavesAll_map_expr es)

theorem leaves_subset_of_mem {row : Row} : ∀ {rows : List Row}, row ∈ rows →
    row.leaves ⊆ leavesAll rows
  | _ :: _, .head _ => List.subset_append_left ..
  | _ :: _, .tail _ h => List.subset_append_of_subset_right _ (leaves_subset_of_mem h)

theorem leaves_getD_subset (rows : List Row) (i : Nat) :
    (rows.getD i .absent).leaves ⊆ leavesAll rows := by
  rw [List.getD_eq_getElem?_getD]
  cases h : rows[i]? with
  | none => exact List.nil_subset _
  | some row => exact leaves_subset_of_mem (List.mem_of_getElem? h)

theorem item_subset : ∀ (row : Row) (i : Nat), (row.item i).leaves ⊆ row.leaves
  | .tuple rows, i => leaves_getD_subset rows i
  | .table _ columns, i => by
      simp only [item]
      cases h : columns[i]? with
      | none => exact List.nil_subset _
      | some e => exact List.cons_subset.2 ⟨List.mem_of_getElem? h, List.nil_subset _⟩
  | .expr _, 0 => List.Subset.refl _
  | .expr _, _ + 1 => List.nil_subset _
  | .group key _, i => List.subset_append_of_subset_left _ (key.item_subset i)
  | .absent, _ => List.nil_subset _

theorem key_subset (row : Row) : row.key.leaves ⊆ row.leaves := by
  cases row with
  | group => exact List.subset_append_left ..
  | _ => exact List.Subset.refl _

theorem source_subset (row : Row) : row.source.leaves ⊆ row.leaves := by
  cases row with
  | group => exact List.subset_append_right ..
  | _ => exact List.Subset.refl _

theorem mem_of_find? {table : Option String} {name : String} {e : Expr} :
    ∀ {row : Row}, row.find? table name = some e → e ∈ row.leaves
  | .group key source, h => by
      rcases Option.or_eq_some_iff.1 h with hkey | ⟨-, hsource⟩
      · exact List.mem_append_left _ (mem_of_find? hkey)
      · exact List.mem_append_right _ (mem_of_find? hsource)
  | .expr e, h => flatten_subset (.expr e) (List.mem_of_find?_eq_some h)
  | .tuple rows, h => flatten_subset (.tuple rows) (List.mem_of_find?_eq_some h)
  | .table t columns, h => flatten_subset (.table t columns) (List.mem_of_find?_eq_some h)
  | .absent, h => flatten_subset .absent (List.mem_of_find?_eq_some h)

end Row

/-! ## Reading a scope -/

theorem Entry.slot_subset (entry : Entry) (s : Slot) : (entry.slot s).leaves ⊆ entry.leaves := by
  cases entry with
  | named => exact List.nil_subset _
  | clause row =>
      cases s with
      | row => exact List.Subset.refl _
      | _ => exact List.nil_subset _
  | joined outer inner =>
      cases s with
      | row => exact List.nil_subset _
      | outer => exact List.subset_append_left ..
      | inner => exact List.subset_append_right ..

namespace Scope

theorem slot_subset : ∀ (scope : Scope) (n : Nat) (s : Slot),
    (slot scope n s).leaves ⊆ leaves scope
  | [], _, _ => List.nil_subset _
  | .named _ _ :: rest, n, s => List.subset_append_of_subset_right _ (slot_subset rest n s)
  | .clause row :: _, 0, s =>
      List.subset_append_of_subset_left _ (Entry.slot_subset (.clause row) s)
  | .joined outer inner :: _, 0, s =>
      List.subset_append_of_subset_left _ (Entry.slot_subset (.joined outer inner) s)
  | .clause _ :: rest, n + 1, s => List.subset_append_of_subset_right _ (slot_subset rest n s)
  | .joined _ _ :: rest, n + 1, s => List.subset_append_of_subset_right _ (slot_subset rest n s)

theorem get_subset : ∀ (scope : Scope) (name : String), (get scope name).leaves ⊆ leaves scope
  | [], _ => List.nil_subset _
  | .named n row :: rest, name => by
      rw [get]
      split
      · exact List.subset_append_left ..
      · exact List.subset_append_of_subset_right _ (get_subset rest name)
  | .clause _ :: rest, name => List.subset_append_of_subset_right _ (get_subset rest name)
  | .joined _ _ :: rest, name => List.subset_append_of_subset_right _ (get_subset rest name)

end Scope

end QueryCompiler
