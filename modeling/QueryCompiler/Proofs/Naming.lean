import QueryCompiler.Proofs.Rules
import QueryCompiler.Proofs.Scoping.References
import QueryCompiler.Proofs.UniqueNames

/-! # `QueryCompiler.Proofs.Naming` — how the outputs of a statement get their names

Each output asks for a name: the one given for it, if the given names match the outputs in number and
this one is not blank; or else the field that it is read from; or else a name by its place.  Columns
that ask for one name get their table in front, and what still agrees is numbered by a search that has
no bound of its own:

    is the name taken?  is it with 1 behind it?  with 2?  ...

The search ends, since the numberings of a name differ even in small letters.  Whatever the expressions
and the given names are, each output gets a name, no two of them agree but for case, and names that
differ as they are asked for are left alone.
-/

namespace QueryCompiler

open Text CompileM

/-! ## The search for a free name -/

/-- From a number on, numberings of the name are tried until one is not taken. -/
inductive Search (taken : List String) (name : String) : Nat → String → Prop
  | free {n} : lower (numbered name n) ∉ taken → Search taken name n (numbered name n)
  | next {n unique} : lower (numbered name n) ∈ taken → Search taken name (n + 1) unique →
      Search taken name n unique

namespace Search

variable {taken : List String} {name unique unique' : String} {n m : Nat}

theorem deterministic (h : Search taken name n unique) (h' : Search taken name n unique') :
    unique = unique' := by
  induction h with
  | free hfree =>
      cases h' with
      | free _ => rfl
      | next htaken _ => exact absurd htaken hfree
  | next htaken _ ih =>
      cases h' with
      | free hfree => exact absurd htaken hfree
      | next _ h' => exact ih h'

/-- The search passes over what is taken and stops at what is not. -/
theorem of_free : ∀ {steps n : Nat}, lower (numbered name (n + steps)) ∉ taken →
    (∀ k < n + steps, lower (numbered name k) ∈ taken) →
      Search taken name n (numbered name (n + steps))
  | 0, _, hfree, _ => .free hfree
  | steps + 1, n, hfree, htaken => by
      have hshift : n + (steps + 1) = n + 1 + steps := by omega
      rw [hshift] at hfree htaken ⊢
      exact .next (htaken n (by omega)) (of_free hfree htaken)

/-- The first number of a range that is not passed over is where the search stops. -/
theorem of_find? {bound : Nat} (h : (List.range bound).find? (fun k =>
    !taken.contains (lower (numbered name k))) = some m) :
    Search taken name 0 (numbered name m) := by
  have hfree : lower (numbered name m) ∉ taken := by simpa using List.find?_some h
  have hpassed : ∀ k < m, lower (numbered name k) ∈ taken := by
    intro k hk
    have hpass := (List.find?_range_eq_some.1 h).2.2 k hk
    simpa using hpass
  rw [← Nat.zero_add m] at hfree hpassed ⊢
  exact of_free hfree hpassed

end Search

theorem search_freeName (taken : List String) (name : String) :
    Search taken name 0 (freeName taken name) := by
  obtain ⟨n, hfind⟩ := exists_find?_free taken name
  rw [freeName, hfind]
  exact .of_find? hfind

/-- Names are settled first to last, each of them being taken for those behind it. -/
inductive Settles : List String → List String → List String → Prop
  | nil {taken} : Settles taken [] []
  | cons {taken name unique names uniques} : Search taken name 0 unique →
      Settles (lower unique :: taken) names uniques →
      Settles taken (name :: names) (unique :: uniques)

/-- The loop always ends, and with nothing else than the names made to differ. -/
theorem settles_iff : ∀ {taken names uniques : List String},
    Settles taken names uniques ↔ uniques = makeUnique taken names
  | taken, [], uniques => by
      constructor
      · rintro ⟨⟩
        rfl
      · rintro rfl
        exact .nil
  | taken, name :: names, uniques => by
      have hsearch := search_freeName taken name
      constructor
      · intro h
        cases h with
        | cons hunique hrest =>
            obtain rfl := hunique.deterministic hsearch
            rw [settles_iff.1 hrest]
            rfl
      · rintro rfl
        exact .cons hsearch (settles_iff.2 rfl)

/-! ## Names that are asked for -/

section

variable (referenceOf : NodeId → Option Reference)

/-- The name that the output at a place asks for. -/
def wantedName (given : List String) (index : Nat) (e : Expr) : String :=
  (((given[index]?.map trim).filter (· ≠ "")).or ((referenceOf e.id).map (·.field))).getD
    ("Proj" ++ toString index)

/-- The names that outputs ask for.  Those given for them count only if they match in number. -/
def wantedNames (given : Option (List String)) (es : List Expr) : List String :=
  es.mapIdx (wantedName referenceOf ((given.filter (·.length = es.length)).getD []))

variable {referenceOf}

theorem candidate_name (given : List String) (index : Nat) (e : Expr) :
    (candidate given[index]? (referenceOf e.id) index e).name =
      wantedName referenceOf given index e := by
  unfold candidate wantedName
  cases (given[index]?.map trim).filter (· ≠ "") with
  | some name => rfl
  | none => cases referenceOf e.id <;> rfl

/-- Counted from a place on, candidates ask for the names of the places from there on. -/
theorem map_name_candidates (given : List String) : ∀ (index : Nat) (es : List Expr),
    (candidates referenceOf index (given.drop index) es).map (·.name) =
      es.mapIdx fun i e => wantedName referenceOf given (index + i) e
  | _, [] => rfl
  | index, e :: es => by
      have hrest : (fun i => wantedName referenceOf given (index + (i + 1))) =
          fun i => wantedName referenceOf given (index + 1 + i) := by
        funext i
        rw [Nat.add_assoc, Nat.add_comm 1 i]
      rw [candidates, List.map_cons, List.head?_drop, List.tail_drop, candidate_name,
        map_name_candidates given (index + 1) es, List.mapIdx_cons, hrest]
      rfl

/-- Names that differ as they are asked for are left alone. -/
theorem outputNames_of_wanted (given : List String) (es : List Expr)
    (h : ((es.mapIdx (wantedName referenceOf given)).map lower).Nodup) :
    outputNames referenceOf given es = es.mapIdx (wantedName referenceOf given) := by
  have hnames : (candidates referenceOf 0 given es).map (·.name) =
      es.mapIdx (wantedName referenceOf given) := by
    simpa only [List.drop_zero, Nat.zero_add] using map_name_candidates given 0 es
  have hnodup : ((candidates referenceOf 0 given es).map fun c => lower c.name).Nodup := by
    rw [← hnames, List.map_map] at h
    exact h
  rw [outputNames]
  dsimp only
  rw [map_distinguish_of_nodup hnodup (length_candidates referenceOf 0 given es), hnames]
  exact makeUnique_of_nodup h fun _ _ => List.not_mem_nil

end

/-! ## Choosing names -/

/-- The names that the search starts from, clashing columns having got their tables in front. -/
def toldApart (referenceOf : NodeId → Option Reference) (given : List String) (es : List Expr) :
    List String :=
  let all := candidates referenceOf 0 given es
  (all.zip es).map fun (c, e) => distinguish all c e

/-- The names for the outputs of a statement, with a report if given names are passed over. -/
def chooseNames (given : Option (List String)) (es : List Expr) : CompileM (List String) := do
  let given ← givenNames given es.length
  return outputNames (← get).referenceOf given es

/-- Given names count if they match the outputs in number. -/
theorem outcome_givenNames (given : Option (List String)) (width : Nat) (ctx : Context)
    (s : Session) : ∃ s', outcome (givenNames given width) ctx s =
      (.ok ((given.filter (·.length = width)).getD [], ctx), s') := by
  cases given with
  | none => exact ⟨s, rfl⟩
  | some names =>
      by_cases h : names.length = width
      · have hkept : (some names).filter (·.length = width) = some names := by
          simp [Option.filter, h]
        rw [givenNames, if_pos h, hkept]
        exact ⟨s, rfl⟩
      · have hdropped : (some names).filter (·.length = width) = none := by
          simp [Option.filter, h]
        rw [givenNames, if_neg h, hdropped]
        exact ⟨{ s with trace := s.trace.push (.aliasesIgnored width names.length) }, rfl⟩

theorem outcome_chooseNames (given : Option (List String)) (es : List Expr) (ctx : Context)
    (s : Session) : ∃ s', outcome (chooseNames given es) ctx s =
      (.ok (outputNames ctx.referenceOf ((given.filter (·.length = es.length)).getD []) es, ctx),
        s') := by
  obtain ⟨s', hgiven⟩ := outcome_givenNames given es.length ctx s
  refine ⟨s', ?_⟩
  rw [chooseNames, outcome_bind, hgiven]
  rfl

/-- The names of a projection's outputs are chosen when all of them have been written. -/
theorem compileProjection_names {sub : SubqueryCompiler} {given : Option (List String)} {row : Row}
    {ctx ctx' : Context} {s s' : Session} {outputs : List Sql.Output} {fields : List Field}
    (h : outcome (compileProjection sub given row) ctx s = (.ok ((outputs, fields), ctx'), s')) :
    ∃ names s₁, outcome (chooseNames given row.flatten) ctx' s₁ = (.ok (names, ctx'), s') ∧
      outputs.map (·.name) = names ∧ fields.map (·.name) = names := by
  unfold compileProjection at h
  dsimp only at h
  split at h
  · exact (throw_eq_ok.1 h).elim
  · simp only [bind_eq_ok, get_eq_ok, pure_eq_ok] at h
    obtain ⟨sqls, ctx₁, s₁, hsqls, listed, ctx₂, s₂, hlisted, _, _, _, ⟨rfl, rfl, rfl⟩, hmade, rfl,
      rfl⟩ := h
    obtain ⟨s₃, hgiven⟩ := outcome_givenNames given row.flatten.length ctx₁ s₁
    cases hlisted.symm.trans hgiven
    obtain ⟨rfl, rfl⟩ := Prod.mk.inj hmade
    have hnames := length_outputNames ctx₁.referenceOf
      ((given.filter (·.length = row.flatten.length)).getD []) row.flatten
    have hwritten : WritesAll sub row.flatten ⟨ctx, s⟩ sqls ⟨ctx₁, s₁⟩ := Expr.writesAll _ hsqls
    refine ⟨_, s₁, ?_, Sql.Output.map_name_zipWith (hnames.trans hwritten.length_eq.symm),
      Field.map_name_zipWith hnames⟩
    rw [chooseNames, outcome_bind, hgiven]
    rfl

/-- Every output of a statement gets a name.  Whatever is projected, whichever names are given and
whatever is registered, the search for names ends, with one name for each output; no two of them agree
but for case; and the names that the outputs ask for are left alone if they already differ so.  The
names of a projection's output columns are chosen like this, in the context that it leaves. -/
theorem chooseNames_unique (given : Option (List String)) (es : List Expr) (ctx : Context)
    (s : Session) :
    ∃ names s', outcome (chooseNames given es) ctx s = (.ok (names, ctx), s') ∧
      Settles [] (toldApart ctx.referenceOf ((given.filter (·.length = es.length)).getD []) es)
        names ∧
      names.length = es.length ∧ (names.map lower).Nodup ∧
      (((wantedNames ctx.referenceOf given es).map lower).Nodup →
        names = wantedNames ctx.referenceOf given es) ∧
      ∀ (sub : SubqueryCompiler) (row : Row) (before : Context) (s₁ s₂ : Session)
        (outputs : List Sql.Output) (fields : List Field), row.flatten = es →
        outcome (compileProjection sub given row) before s₁ = (.ok ((outputs, fields), ctx), s₂) →
          outputs.map (·.name) = names ∧ fields.map (·.name) = names := by
  obtain ⟨s', hchosen⟩ := outcome_chooseNames given es ctx s
  refine ⟨_, s', hchosen, settles_iff.2 rfl, length_outputNames .., outputNames_nodup ..,
    outputNames_of_wanted _ es, ?_⟩
  rintro sub row before s₁ s₂ outputs fields rfl hok
  obtain ⟨names, s₃, hnames, houtputs, hfields⟩ := compileProjection_names hok
  obtain ⟨s₄, hsame⟩ := outcome_chooseNames given row.flatten ctx s₃
  cases hnames.symm.trans hsame
  exact ⟨houtputs, hfields⟩

-- telling two columns apart makes one of them clash with a given name, which is then numbered
example : outputNames
    (((Context.empty .generic).register 0 ⟨"a0", "Id"⟩).register 1 ⟨"a1", "Id"⟩).referenceOf
    [" ", "", " CustomerId "]
    [.column 0 "customers" "Id", .column 1 "orders" "Id", .literal 2 (.int 7)] =
      ["CustomerId", "OrderId", "CustomerId1"] := by
  decide +kernel

end QueryCompiler
