import QueryCompiler.Proofs.Likeness.Identities
import QueryCompiler.Proofs.Placeholders.Compile
import QueryCompiler.Proofs.Sealing.Clauses
import QueryCompiler.Proofs.Visits

/-! # `QueryCompiler.Proofs.Grouping.Renumbering` — an expression that is written twice

A node that is used in two clauses of a statement is written twice, at two moments.  What comes out
depends on three things only:

    where its nodes are read from       the same unless one is registered again in between
    how many values have been bound     the numbers of its placeholders are so many further on
    how many aliases have been given    the sources of its subqueries have other names

So an expression that holds no subquery is written the same way but for the numbers of its
placeholders, and one that does is never written the same way again.
-/

namespace QueryCompiler

open CompileM

/-! ## Written forms -/

namespace Sql

mutual

/-- The statements of the subqueries in an expression, those inside others left out. -/
def Scalar.selects : Scalar → List Select
  | .reference .. | .bound _ | .named _ | .null | .countStar => []
  | .unary _ operand | .nullTest _ operand | .aggregate _ _ operand => operand.selects
  | .binary _ left right | .compare _ left right | .like left right => left.selects ++ right.selects
  | .case condition positive negative =>
    condition.selects ++ (positive.selects ++ negative.selects)
  | .inList needle values => needle.selects ++ Scalar.selectsAll values
  | .inSelect needle select => needle.selects ++ [select]

def Scalar.selectsAll : List Scalar → List Select
  | [] => []
  | e :: es => e.selects ++ Scalar.selectsAll es

end

mutual

/-- The expression with the placeholders outside its subqueries so many numbers further on. -/
def Scalar.shift (k : Nat) : Scalar → Scalar
  | .reference qualifier field => .reference qualifier field
  | .bound index => .bound (index + k)
  | .named name => .named name
  | .null => .null
  | .countStar => .countStar
  | .binary op left right => .binary op (left.shift k) (right.shift k)
  | .unary op operand => .unary op (operand.shift k)
  | .compare op left right => .compare op (left.shift k) (right.shift k)
  | .nullTest negated operand => .nullTest negated (operand.shift k)
  | .aggregate func distinct operand => .aggregate func distinct (operand.shift k)
  | .case condition positive negative =>
    .case (condition.shift k) (positive.shift k) (negative.shift k)
  | .like value pattern => .like (value.shift k) (pattern.shift k)
  | .inList needle values => .inList (needle.shift k) (Scalar.shiftAll k values)
  | .inSelect needle select => .inSelect (needle.shift k) select

def Scalar.shiftAll (k : Nat) : List Scalar → List Scalar
  | [] => []
  | e :: es => e.shift k :: Scalar.shiftAll k es

end

theorem Scalar.selectsAll_eq_nil : ∀ {ts : List Scalar}, (∀ t ∈ ts, t.selects = []) →
    selectsAll ts = []
  | [], _ => rfl
  | _ :: _, h => by
      rw [List.forall_mem_cons] at h
      rw [selectsAll, h.1, selectsAll_eq_nil h.2, List.append_nil]

mutual

/-- Without placeholders there is nothing to shift. -/
theorem Scalar.shift_eq_self (k : Nat) : ∀ {t : Scalar}, t.bounds = [] → t.shift k = t
  | .reference .., _ | .named _, _ | .null, _ | .countStar, _ => rfl
  | .bound _, h => absurd h (List.cons_ne_nil _ _)
  | .unary _ operand, h | .nullTest _ operand, h | .aggregate _ _ operand, h => by
      rw [shift, shift_eq_self (t := operand) k h]
  | .binary .., h | .compare .., h | .like .., h => by
      obtain ⟨hl, hr⟩ := List.append_eq_nil_iff.1 h
      rw [shift, shift_eq_self k hl, shift_eq_self k hr]
  | .case .., h => by
      obtain ⟨hc, h⟩ := List.append_eq_nil_iff.1 h
      obtain ⟨hp, hn⟩ := List.append_eq_nil_iff.1 h
      rw [shift, shift_eq_self k hc, shift_eq_self k hp, shift_eq_self k hn]
  | .inList .., h => by
      obtain ⟨hn, hv⟩ := List.append_eq_nil_iff.1 h
      rw [shift, shift_eq_self k hn, shiftAll_eq_self k hv]
  | .inSelect .., h => by rw [shift, shift_eq_self k (List.append_eq_nil_iff.1 h).1]

theorem Scalar.shiftAll_eq_self (k : Nat) : ∀ {ts : List Scalar}, boundsAll ts = [] →
    shiftAll k ts = ts
  | [], _ => rfl
  | _ :: _, h => by
      obtain ⟨he, hes⟩ := List.append_eq_nil_iff.1 h
      rw [shiftAll, shift_eq_self k he, shiftAll_eq_self k hes]

end

end Sql

/-! ## Assembled expressions -/

namespace Expr.Assembles

variable {e : Expr} {es : List Expr} {ts : List Sql.Scalar} {t : Sql.Scalar}

theorem selects_eq (h : e.Assembles es ts t) : t.selects = Sql.Scalar.selectsAll ts := by
  cases h <;> simp [Sql.Scalar.selects, Sql.Scalar.selectsAll]

theorem shift (h : e.Assembles es ts t) (k : Nat) :
    e.Assembles es (Sql.Scalar.shiftAll k ts) (t.shift k) := by
  cases h <;> simp only [Sql.Scalar.shift, Sql.Scalar.shiftAll] <;> constructor <;> assumption

theorem idsAll_subset (h : e.Assembles es ts t) : Expr.idsAll es ⊆ e.ids := by
  cases h <;> simp [Expr.ids, Expr.idsAll]

end Expr.Assembles

theorem Expr.id_mem_ids (e : Expr) : e.id ∈ e.ids := by
  cases e <;> exact List.mem_cons_self

/-! ## Subqueries -/

/-- The alias was given out between the moments. -/
def GivenBetween (μ ν : Moment) (label : String) : Prop :=
  ∃ k, μ.context.nextAlias ≤ k ∧ k < ν.context.nextAlias ∧ label = Context.aliasName k

section

variable {sub : SubqueryCompiler} {scope : Scope} {d : Dialect} {μ ν κ : Moment}

theorem GivenBetween.widen {μ' ν' : Moment} {label : String} (h : GivenBetween μ ν label)
    (hμ : μ'.context.Evolves μ.context) (hν : ν.context.Evolves ν'.context) :
    GivenBetween μ' ν' label := by
  obtain ⟨k, hle, hlt, hk⟩ := h
  exact ⟨k, Nat.le_trans hμ.nextAlias_le hle, Nat.lt_of_lt_of_le hlt hν.nextAlias_le, hk⟩

/-- No alias is given out twice. -/
theorem GivenBetween.not_later {μ' ν' : Moment} {label : String} (h : GivenBetween μ ν label)
    (hν : ν.context.Evolves μ'.context) : ¬ GivenBetween μ' ν' label := by
  rintro ⟨k', hle', -, hk'⟩
  obtain ⟨k, -, hlt, hk⟩ := h
  have heq := Context.aliasName_inj.1 (hk.symm.trans hk')
  have hmono := hν.nextAlias_le
  omega

theorem takes_takeAlias {label : String} (h : takeAlias.Takes μ label ν) :
    GivenBetween μ ν label := by
  obtain ⟨hlabel, hctx, -⟩ := takeAlias_eq_ok.1 h
  refine ⟨μ.context.nextAlias, Nat.le_refl _, ?_, hlabel.symm⟩
  rw [← hctx]
  exact Nat.lt_succ_self _

/-- What a statement reads from has an alias of its own. -/
theorem Base.compile_label (hsub : sub.Evolves) {base : Base} {source : Sql.Source} {row : Row}
    (h : (base.compile sub scope).Takes μ (source, row) ν) : GivenBetween μ ν source.label := by
  cases base with
  | table t =>
      simp only [Base.compile, compileTable, takes_bind, takes_pure, Prod.mk.injEq] at h
      obtain ⟨columns, _, hcolumns, label, _, hlabel, _, _, hregister, ⟨rfl, -⟩, rfl⟩ := h
      exact (takes_takeAlias hlabel).widen ((Evolves.build _).takes hcolumns)
        ((Evolves.registerAll _ _).takes hregister)
  | derived block =>
      simp only [Base.compile, compileDerived, takes_bind, takes_pure, Prod.mk.injEq] at h
      obtain ⟨inner, _, hinner, label, _, hlabel, _, _, hregister, ⟨rfl, -⟩, rfl⟩ := h
      exact (takes_takeAlias hlabel).widen
        (((Block.compile_evolves scope hsub block).indented 1).takes hinner)
        ((Evolves.registerAll _ _).takes hregister)
  | strayHaving query => exact (takes_throw.1 h).elim

theorem Block.compile_label (hsub : sub.Evolves) {block : Block} {compiled : Compiled}
    (h : (block.compile sub scope).Takes μ compiled ν) :
    GivenBetween μ ν compiled.select.source.label := by
  obtain ⟨run, rfl, rfl⟩ := exists_selectRun h
  rw [run.source_eq]
  refine (Base.compile_label hsub run.base_takes).widen ?_ (run.evolves_of_opened hsub)
  rw [run.entered_eq]
  exact .refl

/-- The statements of subqueries read from sources with aliases of their own. -/
def SubqueryCompiler.Labels (sub : SubqueryCompiler) : Prop :=
  ∀ ⦃query : Query⦄ ⦃scope : Scope⦄ ⦃μ : Moment⦄ ⦃select : Sql.Select⦄ ⦃ν : Moment⦄,
    (sub query scope).Takes μ select ν → GivenBetween μ ν select.source.label

theorem compileWithin_labels : ∀ depth : Nat, (compileWithin depth).Labels
  | 0, _, _, _, _, _, h => (takes_throw.1 h).elim
  | depth + 1, query, scope, μ, _, ν, h => by
      obtain ⟨compiled, hcompiled, rfl⟩ := takes_compileWithin_succ.1 h
      obtain ⟨block, -, hblock⟩ := Query.takes_compile.1 hcompiled
      exact Block.compile_label (compileWithin_evolves depth) hblock

mutual

/-- The sources of all subqueries that are written have aliases of their own. -/
theorem Writes.labels (hsub : sub.Evolves) (hlabels : sub.Labels) :
    ∀ {e : Expr} {μ : Moment} {t : Sql.Scalar} {ν : Moment}, Writes sub e μ t ν →
      ∀ select ∈ t.selects, GivenBetween μ ν select.source.label
  | _, _, _, _, .registered _, _, hmem => absurd hmem List.not_mem_nil
  | _, _, _, _, .bound _ _, _, hmem => absurd hmem List.not_mem_nil
  | _, _, _, _, .assembled _ ha hes, select, hmem =>
      hes.labels hsub hlabels select (ha.selects_eq ▸ hmem)
  | _, _, _, _, .subquery _ hneedle hnormal hselect _, select, hmem => by
      have hnormal := (Evolves.normalize _).takes hnormal
      rcases List.mem_append.1 hmem with hmem | hmem
      · exact (hneedle.labels hsub hlabels select hmem).widen .refl
          (hnormal.trans (((hsub _ _).indented 2).takes hselect))
      · obtain rfl := List.mem_singleton.1 hmem
        obtain ⟨ζ, hselect, hζ⟩ := hselect.indented
        exact (hlabels hselect).widen
          (((hneedle.evolves hsub).trans hnormal).trans (.indent _ .refl)) hζ

theorem WritesAll.labels (hsub : sub.Evolves) (hlabels : sub.Labels) :
    ∀ {es : List Expr} {μ : Moment} {ts : List Sql.Scalar} {ν : Moment}, WritesAll sub es μ ts ν →
      ∀ select ∈ Sql.Scalar.selectsAll ts, GivenBetween μ ν select.source.label
  | _, _, _, _, .nil, _, hmem => absurd hmem List.not_mem_nil
  | _, _, _, _, .cons he hes, select, hmem => by
      rcases List.mem_append.1 hmem with hmem | hmem
      · exact (he.labels hsub hlabels select hmem).widen .refl (hes.evolves hsub)
      · exact (hes.labels hsub hlabels select hmem).widen (he.evolves hsub) .refl

end

/-! ## Expressions without subqueries -/

mutual

/-- Nothing is registered. -/
theorem Writes.aliases_eq : ∀ {e : Expr} {μ : Moment} {t : Sql.Scalar} {ν : Moment},
    Writes sub e μ t ν → t.selects = [] → ν.context.aliases = μ.context.aliases
  | _, _, _, _, .registered _, _ | _, _, _, _, .bound _ _, _ => rfl
  | _, _, _, _, .assembled _ ha hes, hflat => hes.aliases_eq (ha.selects_eq.symm.trans hflat)
  | _, _, _, _, .subquery .., hflat => absurd (List.append_eq_nil_iff.1 hflat).2 (by simp)

theorem WritesAll.aliases_eq : ∀ {es : List Expr} {μ : Moment} {ts : List Sql.Scalar} {ν : Moment},
    WritesAll sub es μ ts ν → Sql.Scalar.selectsAll ts = [] →
      ν.context.aliases = μ.context.aliases
  | _, _, _, _, .nil, _ => rfl
  | _, _, _, _, .cons he hes, hflat => by
      obtain ⟨hflat, hflats⟩ := List.append_eq_nil_iff.1 hflat
      exact (hes.aliases_eq hflats).trans (he.aliases_eq hflat)

end

/-- How many values have been bound. -/
def Moment.count (μ : Moment) : Nat := μ.context.params.length

mutual

/-- The placeholders have the numbers that are given out. -/
theorem Writes.bounds_mem (hsub : sub.Evolves) : ∀ {e : Expr} {μ : Moment} {t : Sql.Scalar}
    {ν : Moment}, Writes sub e μ t ν → μ.context.Ordered d → t.selects = [] →
      ∀ i ∈ t.bounds, μ.count ≤ i ∧ i < ν.count
  | _, _, _, _, .registered _, _, _, _, hmem => absurd hmem List.not_mem_nil
  | _, μ, _, _, .bound _ _, hμ, _, i, hmem => by
      obtain rfl := List.mem_singleton.1 hmem
      refine ⟨Nat.le_refl _, ?_⟩
      rw [Moment.count, Moment.bind, hμ.params_bind, List.length_append, List.length_singleton]
      exact Nat.lt_succ_self _
  | _, _, _, _, .assembled _ ha hes, hμ, hflat, i, hmem =>
      hes.bounds_mem hsub hμ (ha.selects_eq.symm.trans hflat) i (ha.bounds_eq ▸ hmem)
  | _, _, _, _, .subquery .., _, hflat, _, _ =>
      absurd (List.append_eq_nil_iff.1 hflat).2 (by simp)

theorem WritesAll.bounds_mem (hsub : sub.Evolves) : ∀ {es : List Expr} {μ : Moment}
    {ts : List Sql.Scalar} {ν : Moment}, WritesAll sub es μ ts ν → μ.context.Ordered d →
      Sql.Scalar.selectsAll ts = [] →
      ∀ i ∈ Sql.Scalar.boundsAll ts, μ.count ≤ i ∧ i < ν.count
  | _, _, _, _, .nil, _, _, _, hmem => absurd hmem List.not_mem_nil
  | _, _, _, _, .cons he hes, hμ, hflat, i, hmem => by
      obtain ⟨hflat, hflats⟩ := List.append_eq_nil_iff.1 hflat
      obtain ⟨hκ, hprefix⟩ := hμ.evolves (he.evolves hsub)
      have hprefix' := (hκ.evolves (hes.evolves hsub)).2
      rcases List.mem_append.1 hmem with hmem | hmem
      · obtain ⟨hle, hlt⟩ := he.bounds_mem hsub hμ hflat i hmem
        exact ⟨hle, Nat.lt_of_lt_of_le hlt hprefix'.length_le⟩
      · obtain ⟨hle, hlt⟩ := hes.bounds_mem hsub hκ hflats i hmem
        exact ⟨Nat.le_trans hprefix.length_le hle, hlt⟩

end

/-! ## Written again -/

/-- The values that have been bound, in order. -/
def Moment.values (μ : Moment) : List Value := μ.context.params.map (·.2)

theorem Moment.length_values (μ : Moment) : μ.values.length = μ.count := List.length_map _

/-- At the second moment the nodes are read from where they are at the first, and `k` more values
have been bound; from the `n`th value of the first on, the same values follow. -/
structure Moment.Echoes (d : Dialect) (ids : List NodeId) (n k : Nat) (μ μ' : Moment) : Prop where
  ordered : μ.context.Ordered d
  ordered' : μ'.context.Ordered d
  reads : ∀ id ∈ ids, μ'.referenceOf id = μ.referenceOf id
  count_eq : μ'.count = μ.count + k
  le_count : n ≤ μ.count
  values_eq : μ'.values.drop (n + k) = μ.values.drop n

variable {ids : List NodeId} {n k : Nat}

/-- A moment and a later one echo each other as far as nothing has been written since. -/
theorem Moment.Echoes.of_reads {μ μ' : Moment} (hμ : μ.context.Ordered d)
    (hμ' : μ'.context.Ordered d) (hreads : ∀ id ∈ ids, μ'.referenceOf id = μ.referenceOf id)
    (hle : μ.count ≤ μ'.count) : μ.Echoes d ids μ.count (μ'.count - μ.count) μ' where
  ordered := hμ
  ordered' := hμ'
  reads := hreads
  count_eq := by omega
  le_count := Nat.le_refl _
  values_eq := by
    rw [List.drop_eq_nil_of_le (by rw [length_values]; omega),
      List.drop_eq_nil_of_le (Nat.le_of_eq μ.length_values)]

theorem Moment.Echoes.value_eq {μ μ' : Moment} (h : μ.Echoes d ids n k μ') {i : Nat} (hi : n ≤ i) :
    μ'.values[i + k]? = μ.values[i]? := by
  obtain ⟨j, rfl⟩ := Nat.exists_eq_add_of_le hi
  calc μ'.values[n + j + k]? = (μ'.values.drop (n + k))[j]? := by
        rw [List.getElem?_drop, Nat.add_right_comm]
    _ = (μ.values.drop n)[j]? := by rw [h.values_eq]
    _ = μ.values[n + j]? := List.getElem?_drop

theorem Moment.Echoes.bind {μ μ' : Moment} (h : μ.Echoes d ids n k μ') (value : Value) :
    (μ.bind value).Echoes d ids n k (μ'.bind value) where
  ordered := h.ordered.bind value
  ordered' := h.ordered'.bind value
  reads := h.reads
  count_eq := by
    have hcount := h.count_eq
    simp only [Moment.count, Moment.bind, h.ordered.params_bind, h.ordered'.params_bind,
      List.length_append, List.length_singleton] at hcount ⊢
    omega
  le_count := by
    have hle := h.le_count
    simp only [Moment.count, Moment.bind, h.ordered.params_bind, List.length_append,
      List.length_singleton] at hle ⊢
    omega
  values_eq := by
    have hle := h.le_count
    have hcount := h.count_eq
    have hvalues := h.values_eq
    simp only [Moment.values, Moment.count, Moment.bind, h.ordered.params_bind,
      h.ordered'.params_bind, List.map_append] at hle hcount hvalues ⊢
    rw [List.drop_append_of_le_length (by rw [List.length_map]; omega),
      List.drop_append_of_le_length (by rw [List.length_map]; omega), hvalues]
    rfl

mutual

/-- Written again, an expression without subqueries has its placeholders so many numbers further
on. -/
theorem Writes.again : ∀ {e : Expr} {μ : Moment} {t : Sql.Scalar} {ν : Moment},
    Writes sub e μ t ν → t.selects = [] → e.ids ⊆ ids → ∀ {μ' : Moment},
      μ.Echoes d ids n k μ' →
      ∃ ν', Writes sub e μ' (t.shift k) ν' ∧ ν.Echoes d ids n k ν'
  | e, _, _, _, .registered hr, _, hids, μ', hμ =>
      ⟨μ', .registered ((hμ.reads _ (hids e.id_mem_ids)).trans hr), hμ⟩
  | .literal id value, μ, _, _, .bound hid hnull, _, hids, μ', hμ => by
      have hwrites : Writes sub (.literal id value) μ' (.bound μ'.count)
          (μ'.bind (μ'.context.dialect.encode value)) :=
        .bound ((hμ.reads id (hids List.mem_cons_self)).trans hid) hnull
      rw [hμ.count_eq, hμ.ordered'.dialect_eq] at hwrites
      rw [hμ.ordered.dialect_eq]
      exact ⟨_, hwrites, hμ.bind _⟩
  | e, _, _, _, .assembled hid ha hes, hflat, hids, _, hμ => by
      obtain ⟨ν', hes', hν⟩ := hes.again (ha.selects_eq.symm.trans hflat)
        (List.Subset.trans ha.idsAll_subset hids) hμ
      exact ⟨ν', .assembled ((hμ.reads _ (hids e.id_mem_ids)).trans hid) (ha.shift k) hes', hν⟩
  | _, _, _, _, .subquery .., hflat, _, _, _ =>
      absurd (List.append_eq_nil_iff.1 hflat).2 (by simp)

theorem WritesAll.again : ∀ {es : List Expr} {μ : Moment} {ts : List Sql.Scalar} {ν : Moment},
    WritesAll sub es μ ts ν → Sql.Scalar.selectsAll ts = [] → Expr.idsAll es ⊆ ids →
      ∀ {μ' : Moment}, μ.Echoes d ids n k μ' →
      ∃ ν', WritesAll sub es μ' (Sql.Scalar.shiftAll k ts) ν' ∧ ν.Echoes d ids n k ν'
  | _, _, _, _, .nil, _, _, μ', hμ => ⟨μ', .nil, hμ⟩
  | _, _, _, _, .cons he hes, hflat, hids, _, hμ => by
      obtain ⟨hflat, hflats⟩ := List.append_eq_nil_iff.1 hflat
      obtain ⟨hid, hids⟩ := List.append_subset.1 hids
      obtain ⟨κ', he', hκ⟩ := he.again hflat hid hμ
      obtain ⟨ν', hes', hν⟩ := hes.again hflats hids hκ
      exact ⟨ν', .cons he' hes', hν⟩

end

end

end QueryCompiler
