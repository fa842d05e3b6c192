import QueryCompiler.Proofs.Naming

/-! # `QueryCompiler.Proofs.GivenNames` — which given names are kept

A name that is given for an output is a wish.  Names are settled first to last, and a wish that is
free by then is granted.  It is not enough that no other output wishes for the same:

    wishes     X     x     X1
    names      X     x1    X11

The second output comes too late for its wish and gets a name that nobody asked for, and this one is
in the way of the third.  No other reason is there for a wish not to be granted.  Given a wish that
differs from the names that all other outputs start from, the output has it as its name if and only if
no earlier output has got a number behind its name and thereby the same; or else the wish gets a number
itself.
-/

namespace QueryCompiler

open Text CompileM

/-! ## One name after the other -/

/-- A name is kept exactly if it is not taken. -/
theorem freeName_eq_self_iff {taken : List String} {name : String} :
    freeName taken name = name ↔ lower name ∉ taken := by
  constructor
  · intro h
    have hfree := lower_freeName_notMem taken name
    rwa [h] at hfree
  · exact freeName_of_notMem

/-- The name at a place is a free one, those before it and the names taken already being taken. -/
theorem makeUnique_getElem? (names : List String) : ∀ (taken : List String) (i : Nat),
    (makeUnique taken names)[i]? =
      names[i]?.map (freeName ((((makeUnique taken names).take i).map lower).reverse ++ taken)) := by
  induction names with
  | nil =>
      intro taken i
      rw [makeUnique, List.getElem?_nil, Option.map_none]
  | cons name names ih =>
      intro taken i
      rw [makeUnique]
      cases i with
      | zero => rfl
      | succ i =>
          rw [List.getElem?_cons_succ, List.getElem?_cons_succ, ih, List.take_succ_cons, List.map_cons,
            List.reverse_cons, List.append_assoc]
          rfl

/-- From the start, a name is settled as it is exactly if no earlier output has it but for case. -/
theorem makeUnique_getElem?_eq_iff {names : List String} {i : Nat} {name : String}
    (hname : names[i]? = some name) :
    (makeUnique [] names)[i]? = some name ↔
      ∀ j < i, ∀ other, (makeUnique [] names)[j]? = some other → lower other ≠ lower name := by
  rw [makeUnique_getElem?, hname, Option.map_some, Option.some.injEq, freeName_eq_self_iff,
    List.append_nil, List.mem_reverse]
  constructor
  · intro hfree j hj other hother hsame
    have hmem : other ∈ (makeUnique [] names).take i :=
      List.mem_of_getElem? ((List.getElem?_take_of_lt hj).trans hother)
    exact hfree (hsame ▸ List.mem_map_of_mem hmem)
  · intro hall hmem
    obtain ⟨other, hother, hsame⟩ := List.mem_map.1 hmem
    obtain ⟨j, hj⟩ := List.mem_iff_getElem?.1 hother
    rw [List.getElem?_take] at hj
    split at hj
    · next hlt => exact hall j hlt other hj hsame
    · cases hj

/-- A name is what the output started from, with a number behind it or without. -/
theorem exists_numbered_of_makeUnique {taken names : List String} {i : Nat} {name : String}
    (h : (makeUnique taken names)[i]? = some name) :
    ∃ start k, names[i]? = some start ∧ name = numbered start k := by
  rw [makeUnique_getElem?] at h
  obtain ⟨start, hstart, hname⟩ := Option.map_eq_some_iff.1 h
  exact ⟨start, _, hstart, hname.symm⟩

/-- A name that differs from what all others start from can only be taken by one that has got a
number. -/
theorem makeUnique_getElem?_eq_iff_numbered {names : List String} {i : Nat} {name : String}
    (hname : names[i]? = some name)
    (hdiffers : ∀ j ≠ i, ∀ other, names[j]? = some other → lower other ≠ lower name) :
    (makeUnique [] names)[i]? = some name ↔ ∀ j < i, ∀ other k, names[j]? = some other →
      (makeUnique [] names)[j]? = some (numbered other (k + 1)) →
        lower (numbered other (k + 1)) ≠ lower name := by
  rw [makeUnique_getElem?_eq_iff hname]
  constructor
  · intro hall j hj other k _ hother
    exact hall j hj _ hother
  · intro hall j hj settled hsettled
    obtain ⟨other, k, hother, rfl⟩ := exists_numbered_of_makeUnique hsettled
    cases k with
    | zero => exact hdiffers j (Nat.ne_of_lt hj) other hother
    | succ k => exact hall j hj other k hother hsettled

/-! ## Wishes -/

theorem candidate_of_given {given : Option String} {wish : String}
    (hwish : given.map trim = some wish) (hblank : wish ≠ "") (ref : Option Reference) (index : Nat)
    (e : Expr) : candidate given ref index e = ⟨wish, false⟩ := by
  have hkept : (some wish).filter (· ≠ "") = some wish := by
    simp [Option.filter, hblank]
  unfold candidate
  rw [hwish, hkept]

section

variable (referenceOf : NodeId → Option Reference)

theorem candidates_getElem? (given : List String) (es : List Expr) : ∀ index i : Nat,
    (candidates referenceOf index (given.drop index) es)[i]? = es[i]?.map fun e =>
      candidate given[index + i]? (referenceOf e.id) (index + i) e := by
  induction es with
  | nil =>
      intro index i
      rw [candidates, List.getElem?_nil, List.getElem?_nil, Option.map_none]
  | cons e es ih =>
      intro index i
      rw [candidates, List.head?_drop, List.tail_drop]
      cases i with
      | zero => rfl
      | succ i =>
          rw [List.getElem?_cons_succ, List.getElem?_cons_succ, ih, Nat.add_assoc, Nat.add_comm 1 i]

/-- A given name that is not blank is what the output starts from: it does not give way to one with a
table in front. -/
theorem toldApart_getElem? {given : List String} {es : List Expr} {i : Nat} {wish : String}
    (hi : i < es.length) (hwish : given[i]?.map trim = some wish) (hblank : wish ≠ "") :
    (toldApart referenceOf given es)[i]? = some wish := by
  have hcandidate : (candidates referenceOf 0 given es)[i]? = some ⟨wish, false⟩ := by
    have hget := candidates_getElem? referenceOf given es 0 i
    rw [List.drop_zero, Nat.zero_add, List.getElem?_eq_getElem hi] at hget
    rw [hget, Option.map_some, candidate_of_given hwish hblank]
  have hpair : ((candidates referenceOf 0 given es).zip es)[i]? = some (⟨wish, false⟩, es[i]) :=
    List.getElem?_zip_eq_some.2 ⟨hcandidate, List.getElem?_eq_getElem hi⟩
  unfold toldApart
  rw [List.getElem?_map, hpair, Option.map_some]
  cases es[i] <;> rfl

end

/-- A wish that differs from what the other outputs start from is granted, unless an earlier output
comes to have it by a number behind its name.  Names are given for all outputs, and the wish is a given
name that is not blank.  In any case the output has the wish for its name, with a number behind it or
without.  The names of a projection's output columns are chosen like this, in the context that it
leaves. -/
theorem chooseNames_given (given : List String) (es : List Expr) (ctx : Context) (s : Session)
    (hgiven : given.length = es.length) :
    ∃ names s', outcome (chooseNames (some given) es) ctx s = (.ok (names, ctx), s') ∧
      (∀ (i : Nat) (wish : String), given[i]?.map trim = some wish → wish ≠ "" →
        (∀ j ≠ i, ∀ other, (toldApart ctx.referenceOf given es)[j]? = some other →
          lower other ≠ lower wish) →
        (names[i]? = some wish ↔ ∀ j < i, ∀ other k,
          (toldApart ctx.referenceOf given es)[j]? = some other →
          names[j]? = some (numbered other (k + 1)) → lower (numbered other (k + 1)) ≠ lower wish) ∧
        ∃ k, names[i]? = some (numbered wish k)) ∧
      ∀ (sub : SubqueryCompiler) (row : Row) (before : Context) (s₁ s₂ : Session)
        (outputs : List Sql.Output) (fields : List Field), row.flatten = es →
        outcome (compileProjection sub (some given) row) before s₁ =
          (.ok ((outputs, fields), ctx), s₂) →
        outputs.map (·.name) = names ∧ fields.map (·.name) = names := by
  obtain ⟨s', hchosen⟩ := outcome_chooseNames (some given) es ctx s
  have hkept : ((some given).filter (·.length = es.length)).getD [] = given := by
    simp [Option.filter, hgiven]
  rw [hkept] at hchosen
  refine ⟨_, s', hchosen, ?_, ?_⟩
  · intro i wish hwish hblank hdiffers
    have hi : i < es.length := by
      rw [← hgiven]
      by_contra hle
      rw [List.getElem?_eq_none (by omega)] at hwish
      cases hwish
    have htold := toldApart_getElem? ctx.referenceOf hi hwish hblank
    have hnames : outputNames ctx.referenceOf given es =
        makeUnique [] (toldApart ctx.referenceOf given es) := rfl
    rw [hnames]
    refine ⟨makeUnique_getElem?_eq_iff_numbered htold hdiffers, ?_⟩
    rw [makeUnique_getElem?, htold]
    exact ⟨_, rfl⟩
  · rintro sub row before s₁ s₂ outputs fields rfl hok
    obtain ⟨names, s₃, hnames, houtputs, hfields⟩ := compileProjection_names hok
    obtain ⟨s₄, hsame⟩ := outcome_chooseNames (some given) row.flatten ctx s₃
    rw [hkept] at hsame
    cases hnames.symm.trans hsame
    exact ⟨houtputs, hfields⟩

private def personColumns : List Expr :=
  [.column 0 "people" "Id", .column 1 "people" "Name", .column 2 "people" "Age"]

/-- The columns are read through the alias of the table. -/
private def personContext : Context :=
  (((Context.empty .generic).register 0 ⟨"a0", "Id"⟩).register 1 ⟨"a0", "Name"⟩).register 2
    ⟨"a0", "Age"⟩

/-- Of the names `X`, `x` and `Y` the last one is kept, although the second is numbered. -/
theorem chooseNames_given_personColumns :
    ∃ names s', outcome (chooseNames (some ["X", "x", " Y "]) personColumns) personContext {} =
      (.ok (names, personContext), s') ∧ names[1]? = some "x1" ∧ names[2]? = some "Y" := by
  obtain ⟨names, s', hchosen, hkept, _⟩ :=
    chooseNames_given ["X", "x", " Y "] personColumns personContext {} rfl
  obtain rfl : ["X", "x1", "Y"] = names := by
    have hnames : (outcome (chooseNames (some ["X", "x", " Y "]) personColumns) personContext
        {}).1.toOption.map (·.1) = some ["X", "x1", "Y"] := by
      decide +kernel
    rw [hchosen] at hnames
    exact (Option.some.inj hnames).symm
  have htold : toldApart personContext.referenceOf ["X", "x", " Y "] personColumns =
      ["X", "x", "Y"] := by
    decide +kernel
  rw [htold] at hkept
  refine ⟨_, s', hchosen, rfl, (hkept 2 "Y" (by decide +kernel) (by decide) ?_).1.2 ?_⟩
  · intro j hj other hother
    rcases j with _ | _ | _ | j
    · cases hother
      decide
    · cases hother
      decide
    · exact absurd rfl hj
    · cases hother
  · intro j hj other k _ hname
    obtain rfl | rfl : j = 0 ∨ j = 1 := by omega
    · rw [← Option.some.inj hname]
      decide
    · rw [← Option.some.inj hname]
      decide

/-- `X1` differs from the names `X` and `x` that the other outputs start from, and yet its output is
called `X11`, since the second one has become `x1`. -/
theorem compileProjection_personColumns_ne :
    (toldApart personContext.referenceOf ["X", "x", "X1"] personColumns).map lower =
        ["x", "x", "x1"] ∧
      (outcome (compileProjection (compileWithin 0) (some ["X", "x", "X1"])
        (.tuple (personColumns.map .expr))) personContext {}).1.toOption.map
          (·.1.1.map (·.name)) = some ["X", "x1", "X11"] := by
  constructor <;> decide +kernel

end QueryCompiler
