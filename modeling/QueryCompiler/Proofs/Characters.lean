import QueryCompiler.Compile.Names
import Mathlib.Data.List.Basic

/-! # `QueryCompiler.Proofs.Characters` — characters that the names of outputs do not make up

Trimming, capital letters and numbers put nothing into a name but letters and digits.  A character
that is neither and stands below the letters, such as the mark of a dialect or a line break, shows
in the name of an output only if it does in the name of a table, a column or an alias.
-/

namespace QueryCompiler

namespace Text

/-! ## Numbers -/

theorem isDigit_of_mem_toString {n : Nat} {c : Char} (h : c ∈ (toString n).toList) : c.isDigit := by
  have hdigits : c ∈ Nat.toDigits 10 n := by simpa using h
  exact Nat.isDigit_of_mem_toDigits (by decide) (by decide) hdigits

theorem toString_nat_injective : Function.Injective (toString : Nat → String) := by
  intro n m h
  have hdigits : Nat.toDigits 10 n = Nat.toDigits 10 m := String.ofList_injective h
  rw [← Nat.ofDigitChars_ten_toDigits (n := n), hdigits, Nat.ofDigitChars_ten_toDigits]

theorem toString_nat_ne_empty (n : Nat) : toString n ≠ "" := by
  intro h
  have hdigits : Nat.toDigits 10 n = [] := String.ofList_injective h
  exact Nat.toDigits_ne_nil hdigits

/-! ## Foreign characters -/

/-- The character stands below all letters and is no digit. -/
structure Foreign (m : Char) : Prop where
  pos : 0 < m.toNat
  low : m.toNat ≤ 0x40
  notDigit : m.isDigit = false

theorem notMem_append {m : Char} {a b : String} (ha : m ∉ a.toList) (hb : m ∉ b.toList) :
    m ∉ (a ++ b).toList := by
  rw [String.toList_append, List.mem_append, not_or]
  exact ⟨ha, hb⟩

theorem upperExpansions_above : ∀ p ∈ upperExpansions, ∀ n ∈ p.2, 0x40 < n := by decide +kernel

theorem upperRuns_above : ∀ run ∈ upperRuns, 0x40 < run.target := by decide +kernel

theorem CaseRun.target_le {run : CaseRun} {c n : Nat} (h : run.image? c = some n) :
    run.target ≤ n := by
  unfold CaseRun.image? at h
  split at h
  · cases h
    exact Nat.le_add_right ..
  · cases h

namespace Foreign

variable {m : Char} (hm : Foreign m)

include hm

theorem toString (n : Nat) : m ∉ (toString n).toList :=
  fun h => Bool.false_ne_true (hm.notDigit.symm.trans (isDigit_of_mem_toString h))

/-- A text of letters above all such characters shows none of them. -/
theorem of_above {s : String} (h : s.toList.all (0x40 < ·.toNat) = true) : m ∉ s.toList :=
  fun hmem => Nat.not_lt_of_le hm.low (of_decide_eq_true (List.all_eq_true.1 h m hmem))

theorem aliasName (n : Nat) : m ∉ (Context.aliasName n).toList :=
  notMem_append (hm.of_above rfl) (hm.toString n)

/-! ## Letters -/

theorem ne_ofNat {n : Nat} (h : 0x40 < n) : m ≠ Char.ofNat n := by
  intro he
  have hn : (Char.ofNat n).toNat = n ∨ (Char.ofNat n).toNat = 0 := by
    by_cases hv : n.isValidChar
    · left
      rw [Char.ofNat, dif_pos hv]
      rfl
    · right
      rw [Char.ofNat, dif_neg hv]
      rfl
  have hpos := hm.pos
  have hlow := hm.low
  rw [← he] at hn
  omega

theorem ne_toUpper {c : Char} (h : m ≠ c) : m ≠ c.toUpper := by
  intro he
  by_cases hc : 'a'.val ≤ c.val ∧ c.val ≤ 'z'.val
  · have hlow : 0x61 ≤ c.val.toNat := UInt32.le_iff_toNat_le.1 hc.1
    have hhigh : c.val.toNat ≤ 0x7a := UInt32.le_iff_toNat_le.1 hc.2
    have hn : c.toUpper.val.toNat = c.val.toNat - 0x20 := by
      unfold Char.toUpper
      rw [dif_pos hc]
      have hshift : ('A'.val - 'a'.val).toNat = 2 ^ 32 - 0x20 := rfl
      rw [UInt32.toNat_add, hshift]
      omega
    rw [← he] at hn
    have hmark : m.val.toNat ≤ 0x40 := hm.low
    omega
  · unfold Char.toUpper at he
    rw [dif_neg hc] at he
    exact h he

theorem notMem_upperChar {c : Char} (h : m ≠ c) : m ∉ upperChar c := by
  unfold upperChar recase
  split
  · simpa using hm.ne_toUpper h
  · cases hx : upperExpansions.lookup c.toNat with
    | some cs =>
        obtain ⟨l₁, l₂, hl, -⟩ := List.lookup_eq_some_iff.1 hx
        have hmem : (c.toNat, cs) ∈ upperExpansions := hl ▸ by simp
        intro hmem'
        obtain ⟨n, hn, hd⟩ := List.mem_map.1 hmem'
        exact hm.ne_ofNat (upperExpansions_above _ hmem n hn) hd.symm
    | none =>
        cases hr : upperRuns.findSome? (·.image? c.toNat) with
        | none => simpa using h
        | some n =>
            obtain ⟨run, hrun, himage⟩ := List.exists_of_findSome?_eq_some hr
            have habove := upperRuns_above run hrun
            have hle := CaseRun.target_le himage
            simpa using hm.ne_ofNat (by omega : 0x40 < n)

theorem capitalize {s : String} (h : m ∉ s.toList) : m ∉ (capitalize s).toList := by
  unfold Text.capitalize
  split
  · exact List.not_mem_nil
  · next c rest hs =>
      rw [hs, List.mem_cons, not_or] at h
      rw [String.toList_ofList, List.mem_append, not_or]
      exact ⟨hm.notMem_upperChar h.1, h.2⟩

/-! ## Names of output columns -/

theorem singular {table : String} (h : m ∉ table.toList) : m ∉ (singular table).toList := by
  refine hm.capitalize fun hmem => h ?_
  rw [String.toList_ofList] at hmem
  split at hmem
  · exact List.dropLast_subset _ hmem
  · exact hmem

omit hm in
theorem trim {s : String} (h : m ∉ s.toList) : m ∉ (trim s).toList := by
  intro hmem
  rw [Text.trim, String.toList_ofList, List.mem_reverse] at hmem
  have hmem := (List.dropWhile_sublist _).subset hmem
  exact h ((List.dropWhile_sublist _).subset (List.mem_reverse.1 hmem))

theorem numbered {name : String} (h : m ∉ name.toList) : ∀ n, m ∉ (numbered name n).toList
  | 0 => h
  | n + 1 => notMem_append h (hm.toString (n + 1))

theorem makeUnique : ∀ {names : List String} (taken : List String),
    (∀ name ∈ names, m ∉ name.toList) → ∀ name ∈ makeUnique taken names, m ∉ name.toList
  | [], _, _ => by simp [QueryCompiler.makeUnique]
  | name :: names, taken, h => by
      rw [List.forall_mem_cons] at h
      rw [QueryCompiler.makeUnique, List.forall_mem_cons]
      exact ⟨hm.numbered h.1 _, makeUnique _ h.2⟩

end Foreign

end Text

/-- The character does not show in a column node; other nodes name nothing. -/
def ColumnLacks (m : Char) : Expr → Prop
  | .column _ table name => m ∉ table.toList ∧ m ∉ name.toList
  | _ => True

namespace Text.Foreign

variable {m : Char} (hm : Foreign m)

include hm

theorem candidate {given : Option String} (hg : ∀ name ∈ given, m ∉ name.toList)
    {ref : Option Reference} (hr : ∀ r ∈ ref, m ∉ r.field.toList) (index : Nat) (e : Expr) :
    m ∉ (candidate given ref index e).name.toList := by
  unfold QueryCompiler.candidate
  split
  · next name _ hname =>
      obtain ⟨hname, -⟩ := Option.filter_eq_some_iff.1 hname
      obtain ⟨text, htext, rfl⟩ := Option.map_eq_some_iff.1 hname
      exact trim (hg text htext)
  · next r hname => exact hr _ rfl
  · exact notMem_append (hm.of_above rfl) (hm.toString index)

theorem candidates {referenceOf : NodeId → Option Reference}
    (hr : ∀ id, ∀ r ∈ referenceOf id, m ∉ r.field.toList) : ∀ {es : List Expr} (index : Nat)
    {given : List String}, (∀ name ∈ given, m ∉ name.toList) →
      ∀ c ∈ candidates referenceOf index given es, m ∉ c.name.toList
  | [], _, _, _ => by simp [QueryCompiler.candidates]
  | e :: es, index, given, hg => by
      rw [QueryCompiler.candidates, List.forall_mem_cons]
      constructor
      · exact hm.candidate (fun name h => hg name (List.mem_of_head? h)) (hr _) index e
      · exact candidates hr (index + 1) fun name h => hg name (List.mem_of_mem_tail h)

theorem distinguish {all : List Candidate} {c : Candidate} (hc : m ∉ c.name.toList) {e : Expr}
    (he : ColumnLacks m e) : m ∉ (distinguish all c e).toList := by
  unfold QueryCompiler.distinguish
  split
  · split
    · exact notMem_append (hm.singular he.1) he.2
    · exact hc
  · exact hc

/-- The character shows in the name of no output, if it does not in the fields that are read, the
names given for outputs, and the tables and names of columns. -/
theorem outputNames {referenceOf : NodeId → Option Reference}
    (hr : ∀ id, ∀ r ∈ referenceOf id, m ∉ r.field.toList) {given : List String}
    (hg : ∀ name ∈ given, m ∉ name.toList) {es : List Expr} (he : ∀ e ∈ es, ColumnLacks m e) :
    ∀ name ∈ outputNames referenceOf given es, m ∉ name.toList := by
  refine hm.makeUnique [] fun name hname => ?_
  obtain ⟨⟨c, e⟩, hmem, rfl⟩ := List.mem_map.1 hname
  obtain ⟨hc, he'⟩ := List.of_mem_zip hmem
  exact hm.distinguish (hm.candidates hr 0 hg c hc) (he e he')

end Text.Foreign

theorem Text.foreign_lineBreak : Text.Foreign '\n' := ⟨by decide, by decide, by decide⟩

end QueryCompiler
