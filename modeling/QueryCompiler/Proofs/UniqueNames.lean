import Mathlib.Data.List.Nodup
import Mathlib.Data.List.Perm.Subperm
import QueryCompiler.Proofs.Characters
import QueryCompiler.Proofs.Outputs

/-! # `QueryCompiler.Proofs.UniqueNames` — no two output columns have one name

A number behind a name shows in its small form as it is, so that the numberings of one name differ
whatever their case, and one more of them than there are taken names leaves one to take.  The names
of the outputs of a statement therefore differ in more than case.

Names that differ already are left alone: read from a derived table that gives each of its columns a
name of its own, an output keeps it.
-/

namespace QueryCompiler

/-! ## Digits in small form -/

namespace Text

/-- The character is its own small form and no part of a word. -/
structure Caseless (c : Char) : Prop where
  lower : lowerChar c = [c]
  notSigma : c ≠ 'Σ'
  notCased : isCased c = false
  notIgnorable : isCaseIgnorable c = false

theorem caseless_of_isDigit {c : Char} (h : c.isDigit = true) : Caseless c := by
  have hbounds : '0'.val ≤ c.val ∧ c.val ≤ '9'.val := by simpa [Char.isDigit] using h
  have hlow : 48 ≤ c.toNat := UInt32.le_iff_toNat_le.1 hbounds.1
  have hhigh : c.toNat ≤ 57 := UInt32.le_iff_toNat_le.1 hbounds.2
  refine ⟨?_, ?_, ?_, ?_⟩
  · have hsmall : c.toLower = c := dif_neg fun hcapital =>
      absurd (UInt32.le_iff_toNat_le.1 hcapital.1) (Nat.not_le.2 (Nat.lt_of_le_of_lt hhigh (by decide)))
    rw [lowerChar, recase, if_pos (by omega), hsmall]
  · rintro rfl
    exact absurd hhigh (by decide)
  -- digits stand in front of all letters, and between the second and the third run of marks
  · exact if_pos (by omega)
  · exact (if_neg (by omega)).trans <| (if_neg (by omega)).trans <| (if_neg (by omega)).trans <|
      (if_neg (by omega)).trans <| if_pos (by omega)

theorem caseless_toString (n : Nat) : ∀ c ∈ (toString n).toList, Caseless c :=
  fun _ hc => caseless_of_isDigit (isDigit_of_mem_toString hc)

variable {ds : List Char} (hds : ∀ c ∈ ds, Caseless c)

include hds

theorem touchesWord_append (cs : List Char) : touchesWord (cs ++ ds) = touchesWord cs := by
  induction cs with
  | nil =>
      cases ds with
      | nil => rfl
      | cons d ds =>
          have hd := hds d List.mem_cons_self
          simp [touchesWord, hd.notIgnorable, hd.notCased]
  | cons c cs ih =>
      by_cases hc : isCaseIgnorable c = true
      · simpa [touchesWord, hc] using ih
      · simp [touchesWord, hc]

theorem lowerAfter_caseless (before : List Char) : lowerAfter before ds = ds := by
  induction ds generalizing before with
  | nil => rfl
  | cons d ds ih =>
      have hd := hds d List.mem_cons_self
      rw [lowerAfter, if_neg hd.notSigma, hd.lower, ih fun c hc => hds c (List.mem_cons_of_mem _ hc)]
      rfl

theorem lowerAfter_append (before cs : List Char) :
    lowerAfter before (cs ++ ds) = lowerAfter before cs ++ ds := by
  induction cs generalizing before with
  | nil => exact lowerAfter_caseless hds before
  | cons c cs ih =>
      rw [List.cons_append, lowerAfter, lowerAfter, ih, endsWord, endsWord, touchesWord_append hds,
        List.append_assoc]

omit hds

theorem lower_append_toString (name : String) (n : Nat) :
    lower (name ++ toString n) = lower name ++ toString n := by
  rw [lower, String.toList_append, lowerAfter_append (caseless_toString n), String.ofList_append,
    String.ofList_toList, lower]

end Text

open Text

/-! ## Numberings -/

/-- No two numberings of a name agree, whatever their case. -/
theorem lower_numbered_injective (name : String) :
    Function.Injective fun n => lower (numbered name n) := by
  intro n m h
  cases n <;> cases m
  case zero.zero => rfl
  all_goals simp only [numbered, lower_append_toString] at h
  case zero.succ m =>
    exact absurd (String.append_eq_left_iff.1 h.symm) (toString_nat_ne_empty _)
  case succ.zero n =>
    exact absurd (String.append_eq_left_iff.1 h) (toString_nat_ne_empty _)
  case succ.succ n m =>
    exact toString_nat_injective (String.append_right_inj _ |>.1 h)

/-- Among one more numberings than there are taken names, one is free. -/
theorem exists_free (taken : List String) (name : String) :
    ∃ n ∈ List.range (taken.length + 1), lower (numbered name n) ∉ taken := by
  by_contra hall
  push Not at hall
  have hsub : (List.range (taken.length + 1)).map (fun n => lower (numbered name n)) ⊆ taken := by
    intro text htext
    obtain ⟨n, hn, rfl⟩ := List.mem_map.1 htext
    exact hall n hn
  have hnodup := (List.nodup_range (n := taken.length + 1)).map (lower_numbered_injective name)
  have hlength := (List.subperm_of_subset hnodup hsub).length_le
  rw [List.length_map, List.length_range] at hlength
  exact Nat.not_succ_le_self _ hlength

theorem exists_find?_free (taken : List String) (name : String) :
    ∃ n, (List.range (taken.length + 1)).find? (fun n =>
      !taken.contains (lower (numbered name n))) = some n := by
  obtain ⟨n, hn, hfree⟩ := exists_free taken name
  refine Option.isSome_iff_exists.1 (List.find?_isSome.2 ⟨n, hn, ?_⟩)
  simpa using hfree

theorem lower_freeName_notMem (taken : List String) (name : String) :
    lower (freeName taken name) ∉ taken := by
  obtain ⟨n, hfind⟩ := exists_find?_free taken name
  have hfree := List.find?_some hfind
  rw [freeName, hfind]
  simpa using hfree

theorem freeName_of_notMem {taken : List String} {name : String} (h : lower name ∉ taken) :
    freeName taken name = name := by
  have hfirst : (List.range (taken.length + 1)).find?
      (fun n => !taken.contains (lower (numbered name n))) = some 0 := by
    rw [List.range_succ_eq_map, List.find?_cons_of_pos]
    simpa [numbered] using h
  rw [freeName, hfirst]
  rfl

/-! ## Names made to differ -/

/-- Names made to differ do, and from the names taken before too. -/
theorem makeUnique_nodup : ∀ taken names : List String,
    ((makeUnique taken names).map lower).Nodup ∧
      ∀ name ∈ makeUnique taken names, lower name ∉ taken
  | _, [] => ⟨List.nodup_nil, fun _ h => absurd h List.not_mem_nil⟩
  | taken, name :: names => by
      obtain ⟨hnodup, hfree⟩ := makeUnique_nodup (lower (freeName taken name) :: taken) names
      rw [makeUnique, List.map_cons, List.nodup_cons, List.forall_mem_cons]
      refine ⟨⟨?_, hnodup⟩, lower_freeName_notMem taken name, fun other hother hmem => ?_⟩
      · rintro hmem
        obtain ⟨other, hother, heq⟩ := List.mem_map.1 hmem
        exact hfree other hother (heq ▸ List.mem_cons_self)
      · exact hfree other hother (List.mem_cons_of_mem _ hmem)

/-- Names that differ are left alone. -/
theorem makeUnique_of_nodup : ∀ {taken names : List String}, (names.map lower).Nodup →
    (∀ name ∈ names, lower name ∉ taken) → makeUnique taken names = names
  | _, [], _, _ => rfl
  | taken, name :: names, hnodup, hfree => by
      rw [List.map_cons, List.nodup_cons] at hnodup
      rw [List.forall_mem_cons] at hfree
      have hrest : ∀ other ∈ names, lower other ∉ lower name :: taken := by
        intro other hother hmem
        rcases List.mem_cons.1 hmem with heq | hmem
        · exact hnodup.1 (heq ▸ List.mem_map_of_mem hother)
        · exact hfree.2 other hother hmem
      rw [makeUnique, freeName_of_notMem hfree.1, makeUnique_of_nodup hnodup.2 hrest]

/-- No two outputs of a statement have one name, whatever its case. -/
theorem outputNames_nodup (referenceOf : NodeId → Option Reference) (given : List String)
    (es : List Expr) : ((outputNames referenceOf given es).map lower).Nodup :=
  (makeUnique_nodup [] _).1

/-! ## Names read from a derived table -/

section

variable {referenceOf : NodeId → Option Reference} {label : String}

/-- A node that is read from a field would take the name of the field. -/
theorem candidates_of_registered : ∀ (index : Nat) {fields : List Field},
    (∀ f ∈ fields, referenceOf f.expr.id = some ⟨label, f.name⟩) →
      candidates referenceOf index [] (fields.map (·.expr)) =
        fields.map fun f => ⟨f.name, f.expr.isColumn⟩
  | _, [], _ => rfl
  | index, f :: fields, h => by
      rw [List.forall_mem_cons] at h
      rw [List.map_cons, List.map_cons, candidates, h.1, List.tail_nil,
        candidates_of_registered (index + 1) h.2]
      rfl

/-- Columns whose names differ do not clash. -/
theorem clashes_le_one {all : List Candidate} (h : (all.map fun c => lower c.name).Nodup)
    (name : String) : clashes all name ≤ 1 := by
  calc clashes all name
      = all.countP fun c => c.renamable && lower c.name = lower name :=
        List.countP_eq_length_filter.symm
    _ ≤ all.countP fun c => lower c.name == lower name :=
        List.countP_mono_left fun c _ hc => by
          simp only [Bool.and_eq_true, decide_eq_true_eq] at hc
          exact beq_iff_eq.2 hc.2
    _ = (all.map fun c => lower c.name).count (lower name) := by
        rw [List.count, List.countP_map]
        rfl
    _ ≤ 1 := List.nodup_iff_count_le_one.1 h _

theorem distinguish_of_nodup {all : List Candidate} (h : (all.map fun c => lower c.name).Nodup)
    (c : Candidate) (e : Expr) : distinguish all c e = c.name := by
  cases e with
  | column id table name =>
      have hclash := clashes_le_one h c.name
      rw [distinguish, if_neg]
      simp only [Bool.and_eq_true, decide_eq_true_eq]
      omega
  | _ => rfl

/-- Candidates whose names differ keep them. -/
theorem map_distinguish_of_nodup {all : List Candidate} {es : List Expr}
    (h : (all.map fun c => lower c.name).Nodup) (hlength : all.length = es.length) :
    ((all.zip es).map fun (c, e) => distinguish all c e) = all.map (·.name) := by
  calc ((all.zip es).map fun (c, e) => distinguish all c e)
      = (all.zip es).map fun p => p.1.name :=
        List.map_congr_left fun p _ => distinguish_of_nodup h p.1 p.2
    _ = ((all.zip es).map Prod.fst).map (·.name) := (List.map_map ..).symm
    _ = all.map (·.name) := by rw [List.map_fst_zip (Nat.le_of_eq hlength)]

/-- Outputs that are read from fields whose names differ take these names. -/
theorem outputNames_of_registered {fields : List Field}
    (href : ∀ f ∈ fields, referenceOf f.expr.id = some ⟨label, f.name⟩)
    (hnodup : ((fields.map (·.name)).map lower).Nodup) :
    outputNames referenceOf [] (fields.map (·.expr)) = fields.map (·.name) := by
  have hall : ((fields.map fun f => (⟨f.name, f.expr.isColumn⟩ : Candidate)).map
      fun c => lower c.name).Nodup := by
    rwa [List.map_map] at hnodup ⊢
  have hlength : (fields.map fun f => (⟨f.name, f.expr.isColumn⟩ : Candidate)).length =
      (fields.map (·.expr)).length := by
    rw [List.length_map, List.length_map]
  rw [outputNames, candidates_of_registered 0 href]
  dsimp only
  rw [map_distinguish_of_nodup hall hlength, List.map_map]
  exact makeUnique_of_nodup hnodup fun _ _ => List.not_mem_nil

end

end QueryCompiler
