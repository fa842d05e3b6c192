import QueryCompiler.Compile.Select

/-! # `QueryCompiler.Proofs.Outputs` — output columns and their names

Every output column gets a name.  Of the columns that show the same node, the first is the one that
the node is read from later.
-/

namespace QueryCompiler

/-! ## Names -/

theorem length_candidates (referenceOf : NodeId → Option Reference) : ∀ (index : Nat)
    (given : List String) (es : List Expr),
      (candidates referenceOf index given es).length = es.length
  | _, _, [] => rfl
  | index, given, _ :: es =>
      congrArg (· + 1) (length_candidates referenceOf (index + 1) given.tail es)

theorem length_makeUnique : ∀ (taken names : List String),
    (makeUnique taken names).length = names.length
  | _, [] => rfl
  | _, _ :: names => congrArg (· + 1) (length_makeUnique _ names)

theorem length_outputNames (referenceOf : NodeId → Option Reference) (given : List String)
    (es : List Expr) : (outputNames referenceOf given es).length = es.length := by
  rw [outputNames, length_makeUnique, List.length_map, List.length_zip, length_candidates,
    Nat.min_self]

theorem Field.map_expr_zipWith {es : List Expr} {names : List String}
    (h : names.length = es.length) : (List.zipWith Field.mk es names).map Field.expr = es := by
  rw [List.map_zipWith]
  exact (List.map_zipWith (f := Prod.fst) (g := Prod.mk)).symm.trans
    (List.map_fst_zip (Nat.le_of_eq h.symm))

theorem Field.map_name_zipWith {es : List Expr} {names : List String}
    (h : names.length = es.length) : (List.zipWith Field.mk es names).map Field.name = names := by
  rw [List.map_zipWith]
  exact (List.map_zipWith (f := Prod.snd) (g := Prod.mk)).symm.trans
    (List.map_snd_zip (Nat.le_of_eq h))

/-! ## First uses of nodes -/

theorem Field.firstUses_subset : ∀ (seen : List NodeId) (fields : List Field),
    Field.firstUses seen fields ⊆ fields
  | _, [] => List.Subset.refl _
  | seen, f :: fields => by
      rw [Field.firstUses]
      split
      · exact List.subset_cons_of_subset _ (firstUses_subset seen fields)
      · exact List.cons_subset_cons _ (firstUses_subset _ fields)

/-- Every node among the fields is kept with its first use. -/
theorem Field.exists_firstUses : ∀ (seen : List NodeId) {fields : List Field} {f : Field},
    f ∈ fields → f.expr.id ∈ seen ∨ ∃ g ∈ Field.firstUses seen fields, g.expr.id = f.expr.id
  | seen, f' :: fields, f, hf => by
      rw [Field.firstUses]
      split
      · next hseen =>
          rcases List.mem_cons.1 hf with rfl | hf
          · exact .inl hseen
          · exact exists_firstUses seen hf
      · rcases List.mem_cons.1 hf with rfl | hf
        · exact .inr ⟨f, List.mem_cons_self, rfl⟩
        · rcases exists_firstUses (f'.expr.id :: seen) hf with hmem | ⟨g, hg, hid⟩
          · rcases List.mem_cons.1 hmem with heq | hmem
            · exact .inr ⟨f', List.mem_cons_self, heq.symm⟩
            · exact .inl hmem
          · exact .inr ⟨g, List.mem_cons_of_mem _ hg, hid⟩

end QueryCompiler
