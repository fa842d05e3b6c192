import QueryCompiler.Proofs.Likeness.Literals

/-! # `QueryCompiler.Proofs.LiteralIndependence` — a statement's text is independent of its literals

Two queries, or two statements that change rows, that differ in the values of literals only are
compiled to the same text with the same placeholders, or refused with the same error.  A value may
replace another if both are null or neither is, whatever their kinds: null is the one value that a
statement spells out.

Where the values of a placeholder differ, so do the literals it stands for.  This is said by
*places*: each placeholder has a place in the list of literals, the same in both runs, and its value
in each run is the literal at that place.
-/

namespace QueryCompiler

/-- The values are equal, or neither is null. -/
def Value.Replaceable (v w : Value) : Prop := v = w ∨ (v.isNull = false ∧ w.isNull = false)

/-- Both runs share their nodes, and the values of literals are related by `V`. -/
def Matching.sharing (V : Value → Value → Prop) (hV : ∀ {v w}, V v w → v.isNull = w.isNull) :
    Matching where
  ids := Eq
  values := V
  ids_unique h h' := by rw [h, h']
  values_null := hV

theorem Value.Replaceable.isNull_eq {v w : Value} (h : v.Replaceable w) : v.isNull = w.isNull := by
  rcases h with rfl | ⟨hv, hw⟩
  · rfl
  · rw [hv, hw]

/-- Shared nodes, and values of literals that may replace each other. -/
def Matching.replacing : Matching := .sharing Value.Replaceable fun h => h.isNull_eq

/-- The results have one text and one list of placeholders, and the values of each placeholder are
those of the literals at one place of the two lists. -/
def CompiledQuery.SameButLiterals (d : Dialect) (literals literals' : List Value)
    (c c' : CompiledQuery) : Prop :=
  c.sql = c'.sql ∧ c.params.map (·.1) = c'.params.map (·.1) ∧
    ∃ places : List Nat,
      c.params.map (fun p => some p.2) = places.map (fun i => literals[i]?.map d.encode) ∧
      c'.params.map (fun p => some p.2) = places.map (fun i => literals'[i]?.map d.encode)

/-- Both runs are refused with the same error, or come to results that are the same but for the
literals. -/
inductive SameButLiterals (d : Dialect) (literals literals' : List Value) :
    Except CompileError CompiledQuery → Except CompileError CompiledQuery → Prop
  | error {e} : SameButLiterals d literals literals' (.error e) (.error e)
  | ok {c c'} : c.SameButLiterals d literals literals' c' →
      SameButLiterals d literals literals' (.ok c) (.ok c')

theorem CompileError.Alike.eq_of_sharing {V : Value → Value → Prop} {hV} {e e' : CompileError}
    (h : CompileError.Alike (.sharing V hV) e e') : e = e' := by
  cases h with
  | same => rfl
  | missingAlias hi => rw [hi]

/-! ## Places -/

section

variable (literals literals' : List Value)

/-- The values stand at one place of the two lists, and may replace each other. -/
def AtOnePlace (v w : Value) : Prop :=
  v.Replaceable w ∧ ∃ i : Nat, literals[i]? = some v ∧ literals'[i]? = some w

/-- Shared nodes, and values of literals that stand at one place. -/
def Matching.placed : Matching :=
  .sharing (AtOnePlace literals literals') fun h => h.1.isNull_eq

variable {literals literals'}

theorem Matching.placed_ids {i i' : NodeId} (h : Matching.replacing.ids i i') :
    (Matching.placed literals literals').ids i i' := h

theorem atOnePlace_of_forall₂ (h : List.Forall₂ Value.Replaceable literals literals') :
    List.Forall₂ (AtOnePlace literals literals') literals literals' := by
  refine List.forall₂_iff_get.2 ⟨h.length_eq, fun i hi hi' => ⟨h.get hi hi', i, ?_, ?_⟩⟩
  · simp [hi]
  · simp [hi']

theorem exists_places {d : Dialect} {ps ps' : List (String × Value)}
    (h : List.Forall₂ (ParamAlike (.placed literals literals') d d) ps ps') :
    ps.map (·.1) = ps'.map (·.1) ∧ ∃ places : List Nat,
      ps.map (fun p => some p.2) = places.map (fun i => literals[i]?.map d.encode) ∧
      ps'.map (fun p => some p.2) = places.map (fun i => literals'[i]?.map d.encode) := by
  induction h with
  | nil => exact ⟨rfl, [], rfl, rfl⟩
  | cons hp _ ih =>
      obtain ⟨i, v, w, ⟨-, place, hv, hw⟩, -, rfl, rfl⟩ := hp
      obtain ⟨hnames, places, hvalues, hvalues'⟩ := ih
      refine ⟨by rw [List.map_cons, List.map_cons, hnames], place :: places, ?_, ?_⟩
      · rw [List.map_cons, List.map_cons, hvalues, hv, Option.map_some]
      · rw [List.map_cons, List.map_cons, hvalues', hw, Option.map_some]

theorem SameButLiterals.of_alike {τ : Type} {render : Dialect → τ → String} {d : Dialect}
    {r r' : Except CompileError CompiledQuery}
    (h : ResultAlike (.placed literals literals')
      (CompiledQuery.Alike (.placed literals literals') d d render) r r') :
    SameButLiterals d literals literals' r r' := by
  cases h with
  | ok h =>
      obtain ⟨⟨tree, hsql, hsql'⟩, hparams⟩ := h
      exact .ok ⟨hsql.trans hsql'.symm, exists_places hparams⟩
  | error h =>
      rw [h.eq_of_sharing]
      exact .error

end

/-! ## Queries and statements -/

theorem Supply.Alike.refl_sharing {V : Value → Value → Prop} {hV} (s : Supply) :
    s.Alike (.sharing V hV) s :=
  fun _ => rfl

/-- No literal has a say in the text of a statement: queries and changes that differ only in the
values of non-null literals, in scopes that do, are refused with one error or compiled to one text
with one list of placeholders, whose values differ only where the literals do. -/
theorem compile_sameButLiterals (d : Dialect) (session : Session) {scope scope' : Scope}
    (hs : scope.Alike .replacing scope') :
    (∀ q q' : Query, q.Alike Value.Replaceable q' →
      SameButLiterals d (scope.literals ++ q.literals) (scope'.literals ++ q'.literals)
        (compileQuery d scope q session).1 (compileQuery d scope' q' session).1) ∧
    (∀ st st' : Statement, st.Alike .replacing st' →
      SameButLiterals d (scope.literals ++ st.literals) (scope'.literals ++ st'.literals)
        (compileStatement d scope st session).1 (compileStatement d scope' st' session).1) := by
  have hls : List.Forall₂ Value.Replaceable scope.literals scope'.literals :=
    Entry.AlikeAll.literals hs
  constructor
  · intro q q' hq
    have hplaced := atOnePlace_of_forall₂ (List.rel_append hls hq.literals)
    obtain ⟨hps, hpq⟩ := forall₂_split hls hplaced
    have hs' := Entry.AlikeAll.relate Matching.placed_ids hs hps
    exact .of_alike ((Query.Alike.compileText hs' (hq.relate hpq)).start (.refl_sharing _))
  · intro st st' hst
    have hplaced := atOnePlace_of_forall₂ (List.rel_append hls hst.literals)
    obtain ⟨hps, hpst⟩ := forall₂_split hls hplaced
    have hs' := Entry.AlikeAll.relate Matching.placed_ids hs hps
    have hst' := hst.relate Matching.placed_ids hpst
    exact .of_alike ((Statement.Alike.compileText hs' hst').start (.refl_sharing _))

/-- Names read from a table kept apart, in a list of texts. -/
private def namedAmong (value : Value) : Query :=
  .filter (.derived (.select (.table ⟨"Users", ["Id", "Name"]⟩) [.row] none))
    (.inList (.named .row "Name") [.literal (.text "Ann"), .literal value])

/-- A text that looks like a condition compiles as a number does. -/
theorem compile_sameButLiterals_namedAmong :
    (namedAmong (.text "x' OR 1=1")).Alike Value.Replaceable (namedAmong (.int 7)) ∧
      SameButLiterals .sqlite [.text "Ann", .text "x' OR 1=1"] [.text "Ann", .int 7]
        (compileQuery .sqlite [] (namedAmong (.text "x' OR 1=1")) {}).1
        (compileQuery .sqlite [] (namedAmong (.int 7)) {}).1 := by
  have halike : (namedAmong (.text "x' OR 1=1")).Alike Value.Replaceable (namedAmong (.int 7)) :=
    .filter (.derived (.select .table (.cons .slot .nil)))
      (.inList (.named .slot)
        (.cons (.literal (.inl rfl)) (.cons (.literal (.inr ⟨rfl, rfl⟩)) .nil)))
  exact ⟨halike, (compile_sameButLiterals .sqlite {} (.nil : Scope.Alike _ [] [])).1 _ _ halike⟩

end QueryCompiler
