import QueryCompiler.Proofs.Aliases
import QueryCompiler.Proofs.Placement

/-! # `QueryCompiler.Proofs.Grouping.Texts` — what shows in a text that is written twice

An expression that is written twice differs in its placeholders and in the aliases of its
subqueries.  Whether the two texts differ as well is another question, since anything may be the name
of a field.

    placeholders     the texts differ whatever the names are
    subqueries       the texts differ if the names are words

The first of two placeholders that differ ends at a character that is no digit, in both texts, and up
to there the texts are the same; so they differ there.  Behind a subquery no such place is at hand, and
the aliases are read off the texts instead.
-/

namespace QueryCompiler

/-! ## Texts that are the same as far as they go -/

namespace Text

/-- No number goes on here. -/
def NumberEnds (cs : List Char) : Prop := ∀ c ∈ cs.head?, c.isDigit = false

/-- The text starts with a character that is no digit. -/
def startsApart (text : String) : Bool := text.toList.head?.any (!·.isDigit)

/-- The texts start what is the same, and goes on with no digit, only under the condition. -/
def SameOnlyIf (p : Prop) (a a' : String) : Prop :=
  ∀ ⦃rest rest' : List Char⦄, NumberEnds rest → NumberEnds rest' →
    a.toList ++ rest = a'.toList ++ rest' → p ∧ rest = rest'

namespace SameOnlyIf

variable {p p' : Prop} {a a' b b' : String}

theorem holds (h : SameOnlyIf p a a') (heq : a = a') : p := by
  have hends : NumberEnds [] := fun _ hc => nomatch hc
  exact (h hends hends (by rw [heq])).1

theorem mono (h : SameOnlyIf p a a') (hp : p → p') : SameOnlyIf p' a a' :=
  fun _ _ hrest hrest' heq => (h hrest hrest' heq).imp_left hp

theorem same (hp : p) (text : String) : SameOnlyIf p text text :=
  fun _ _ _ _ heq => ⟨hp, List.append_cancel_left heq⟩

theorem behind (front : String) (h : SameOnlyIf p a a') : SameOnlyIf p (front ++ a) (front ++ a') := by
  intro rest rest' hrest hrest' heq
  simp only [String.toList_append, List.append_assoc] at heq
  exact h hrest hrest' (List.append_cancel_left heq)

/-- A text that starts with no digit ends the numbers before it. -/
theorem between (h : SameOnlyIf p a a') (text : String) (htext : startsApart text = true)
    (h' : SameOnlyIf p' b b') : SameOnlyIf (p ∧ p') (a ++ text ++ b) (a' ++ text ++ b') := by
  intro rest rest' hrest hrest' heq
  simp only [String.toList_append, List.append_assoc] at heq
  have hends : ∀ cs, NumberEnds (text.toList ++ cs) := by
    intro cs c hc
    cases hcs : text.toList with
    | nil => simp [startsApart, hcs] at htext
    | cons x xs =>
        rw [hcs] at hc
        obtain rfl := Option.some.inj hc
        simpa [startsApart, hcs] using htext
  obtain ⟨hp, heq⟩ := h (hends _) (hends _) heq
  obtain ⟨hp', heq⟩ := h' hrest hrest' (List.append_cancel_left heq)
  exact ⟨⟨hp, hp'⟩, heq⟩

theorem before (h : SameOnlyIf p a a') {text : String} (htext : startsApart text = true) :
    SameOnlyIf p (a ++ text) (a' ++ text) := by
  have hboth := h.between text htext (same trivial "")
  rw [String.append_empty, String.append_empty] at hboth
  exact hboth.mono And.left

theorem bracket (h : SameOnlyIf p a a') (atomic : Bool) :
    SameOnlyIf p (Sql.bracket atomic a) (Sql.bracket atomic a') := by
  cases atomic with
  | true => exact h
  | false => exact (h.behind "(").before rfl

theorem operator (h : SameOnlyIf p a a') (h' : SameOnlyIf p' b b') (word : String) :
    SameOnlyIf (p ∧ p') (a ++ " " ++ word ++ " " ++ b) (a' ++ " " ++ word ++ " " ++ b') := by
  simpa only [String.append_assoc] using h.between " " rfl (h'.behind (word ++ " "))

theorem concat (d : Dialect) (h : SameOnlyIf p a a') (h' : SameOnlyIf p' b b') :
    SameOnlyIf (p ∧ p') (d.concat a b) (d.concat a' b') := by
  cases d with
  | sqlite => exact h.between " || " rfl h'
  | generic | sqlserver => exact ((h.behind "CONCAT(").between ", " rfl h').before rfl

/-- Numbers that end alike are the same. -/
theorem number (n m : Nat) : SameOnlyIf (n = m) (toString n) (toString m) := by
  intro rest rest' hrest hrest' heq
  have hspan : ∀ (k : Nat) {cs : List Char}, NumberEnds cs →
      ((toString k).toList ++ cs).takeWhile Char.isDigit = (toString k).toList := by
    intro k cs hcs
    have hdigits : ∀ c ∈ (toString k).toList, c.isDigit := fun c hc => isDigit_of_mem_toString hc
    have hnone : cs.takeWhile Char.isDigit = [] := by
      cases cs with
      | nil => rfl
      | cons c cs => rw [List.takeWhile_cons, hcs c rfl, if_neg Bool.false_ne_true]
    rw [List.takeWhile_append_of_pos hdigits, hnone, List.append_nil]
  have hsame : n = m := by
    refine toString_nat_injective (String.toList_inj.1 ?_)
    rw [← hspan n hrest, heq, hspan m hrest']
  subst hsame
  exact ⟨rfl, List.append_cancel_left heq⟩

end SameOnlyIf

end Text

open Text (SameOnlyIf)

/-! ## Placeholders -/

namespace Sql

variable {d : Dialect}

theorem placeholder_sameOnlyIf (i j : Nat) :
    SameOnlyIf (i = j) (placeholder d i) (placeholder d j) :=
  (SameOnlyIf.number i j).behind (d.parameterMark ++ "p")

theorem Scalar.isAtomic_shift (k : Nat) (t : Scalar) : (t.shift k).isAtomic = t.isAtomic := by
  cases t <;> rfl

mutual

/-- Other numbers of placeholders show in the text. -/
theorem Scalar.shift_sameOnlyIf (k level : Nat) : ∀ t : Scalar,
    SameOnlyIf (t.shift k = t) ((t.shift k).render d level) (t.render d level)
  | .reference .. | .named _ | .null | .countStar => .same rfl _
  | .bound index => (placeholder_sameOnlyIf (index + k) index).mono fun h => by rw [shift, h]
  | .unary op operand => by
      rw [shift, render, render, isAtomic_shift]
      exact (((operand.shift_sameOnlyIf k level).bracket _).behind _).mono fun h => by rw [h]
  | .nullTest negated operand => by
      rw [shift, render, render, isAtomic_shift]
      have hoperand := ((operand.shift_sameOnlyIf k level).bracket operand.isAtomic).mono
        fun h => congrArg (Scalar.nullTest negated) h
      cases negated with
      | true => exact hoperand.before rfl
      | false => exact hoperand.before rfl
  | .aggregate func distinct operand => by
      rw [shift, render, render]
      exact (((operand.shift_sameOnlyIf k level).behind _).before rfl).mono fun h => by rw [h]
  | .binary op left right => by
      have hleft := (left.shift_sameOnlyIf k level).bracket left.isAtomic
      have hright := (right.shift_sameOnlyIf k level).bracket right.isAtomic
      by_cases hop : op = .concat
      · rw [hop, shift, render, render, isAtomic_shift, isAtomic_shift]
        exact (hleft.concat d hright).mono fun h => by rw [h.1, h.2]
      · rw [shift, render_binary hop, render_binary hop, isAtomic_shift, isAtomic_shift]
        exact (hleft.operator hright _).mono fun h => by rw [h.1, h.2]
  | .compare op left right => by
      have hleft := (left.shift_sameOnlyIf k level).bracket left.isAtomic
      have hright := (right.shift_sameOnlyIf k level).bracket right.isAtomic
      rw [shift, render, render, isAtomic_shift, isAtomic_shift]
      exact (hleft.operator hright _).mono fun h => by rw [h.1, h.2]
  | .like value pattern => by
      have hvalue := (value.shift_sameOnlyIf k level).bracket value.isAtomic
      have hpattern := (pattern.shift_sameOnlyIf k level).bracket pattern.isAtomic
      rw [shift, render, render, isAtomic_shift, isAtomic_shift]
      exact (hvalue.between " LIKE " rfl hpattern).mono fun h => by rw [h.1, h.2]
  | .case condition positive negative => by
      rw [shift, render, render]
      have hwhen := (condition.shift_sameOnlyIf k level).behind "CASE WHEN "
      have hboth := hwhen.between " THEN " rfl (positive.shift_sameOnlyIf k level)
      have hall := hboth.between " ELSE " rfl (negative.shift_sameOnlyIf k level)
      exact (hall.before rfl).mono fun h => by rw [h.1.1, h.1.2, h.2]
  | .inList needle values => by
      have hneedle := (needle.shift_sameOnlyIf k level).bracket needle.isAtomic
      rw [shift, render, render, isAtomic_shift]
      have hvalues := hneedle.between " IN (" rfl (Scalar.shiftAll_sameOnlyIf k level values)
      exact (hvalues.before rfl).mono fun h => by rw [h.1, h.2]
  | .inSelect needle select => by
      have hneedle := (needle.shift_sameOnlyIf k level).bracket needle.isAtomic
      rw [shift, render, render, isAtomic_shift]
      simp only [String.append_assoc]
      refine (hneedle.before ?_).mono fun h => by rw [h]
      rw [Text.startsApart, String.toList_append]
      rfl

theorem Scalar.shiftAll_sameOnlyIf (k level : Nat) : ∀ ts : List Scalar,
    SameOnlyIf (Scalar.shiftAll k ts = ts)
      (String.intercalate ", " (Scalar.renderAll d level (Scalar.shiftAll k ts)))
      (String.intercalate ", " (Scalar.renderAll d level ts))
  | [] => .same rfl _
  | [t] => by
      simp only [shiftAll, renderAll, String.intercalate_singleton]
      exact (t.shift_sameOnlyIf k level).mono fun h => by rw [h]
  | t :: next :: ts => by
      have hrest := Scalar.shiftAll_sameOnlyIf k level (next :: ts)
      simp only [shiftAll, renderAll, String.intercalate_cons_cons] at hrest ⊢
      exact ((t.shift_sameOnlyIf k level).between ", " rfl hrest).mono fun h => by rw [h.1, h.2]

end

theorem Scalar.render_shift_eq_iff {k level : Nat} {t : Scalar} :
    (t.shift k).render d level = t.render d level ↔ t.shift k = t :=
  ⟨(t.shift_sameOnlyIf k level).holds, fun h => by rw [h]⟩

/-! ## Statements inside statements -/

variable {σ : Spelling}

mutual

theorem Scalar.Spelled.select {s : Select} : ∀ {e : Scalar}, e.Spelled σ → s ∈ e.selects → s.Spelled σ
  | _, .unary h, hs | _, .nullTest h, hs | _, .aggregate h, hs => h.select hs
  | _, .binary hl hr, hs | _, .compare hl hr, hs | _, .like hl hr, hs =>
      (List.mem_append.1 hs).elim hl.select hr.select
  | _, .case hc hp hn, hs =>
      (List.mem_append.1 hs).elim hc.select fun hs => (List.mem_append.1 hs).elim hp.select hn.select
  | _, .inList hn hv, hs => (List.mem_append.1 hs).elim hn.select (Scalar.Spelled.selectAll hv)
  | _, .inSelect _ hn h, hs => by
      rcases List.mem_append.1 hs with hs | hs
      · exact hn.select hs
      · exact List.mem_singleton.1 hs ▸ h

theorem Scalar.Spelled.selectAll {s : Select} : ∀ {es : List Scalar}, (∀ e ∈ es, e.Spelled σ) →
    s ∈ Scalar.selectsAll es → s.Spelled σ
  | _ :: _, h, hs => by
      rw [List.forall_mem_cons] at h
      exact (List.mem_append.1 hs).elim h.1.select (Scalar.Spelled.selectAll h.2)

end

theorem Select.Spelled.scalar {s : Select} {e : Scalar} (h : s.Spelled σ) (he : e ∈ s.scalars) :
    e.Spelled σ := by
  obtain ⟨ho, -, hj, hf, hk, hh, hi⟩ := h
  simp only [Select.scalars, Select.joins, Select.filter, Select.keys, Select.having, Select.order,
    Select.outputs, List.mem_append, List.mem_flatMap, List.mem_map, Option.mem_toList] at he
  rcases he with ⟨join, hjoin, he⟩ | he | he | he | ⟨item, hitem, rfl⟩ | ⟨output, houtput, rfl⟩
  · obtain ⟨-, -, houter, hinner⟩ := hj join hjoin
    rcases List.mem_pair.1 he with rfl | rfl
    · exact houter
    · exact hinner
  · exact hf e he
  · exact hk e he
  · exact hh e he
  · obtain ⟨hkey⟩ := hi item hitem
    exact hkey
  · obtain ⟨hvalue, -⟩ := ho output houtput
    exact hvalue

theorem Select.Holds.spelled {root s : Select} {level : Nat} (h : root.Holds level s)
    (hroot : root.Spelled σ) : s.Spelled σ := by
  induction h with
  | root => exact hroot
  | derived _ hsource ih =>
      obtain ⟨-, hs, -⟩ := ih
      obtain rfl : _ = Source.derived _ _ := hsource
      cases hs with
      | derived hinner _ => exact hinner
  | subquery _ he hinner ih => exact (ih.scalar he).select hinner

end Sql

/-! ## Aliases -/

open Text (Word)

variable {d : Dialect} {depth : Nat} {e e' : Expr} {t t' : Sql.Scalar} {κ ξ κ' ξ' : Moment}

theorem Writes.mem_labels (h : Writes (compileWithin depth) e κ t ξ) (ht : t.Spelled .worded)
    (level : Nat) {label : String} :
    label ∈ Text.labels (t.render d level) ↔ GivenBetween κ ξ label := by
  have hspans := (h.numbers (compileWithin_numbers depth)).spans.of_perm
    (Sql.Scalar.reads (d := d) level ht).perm_labels
  simp only [hspans.mem_iff, and_assoc]
  rfl

/-- If the names are words, an expression with a subquery is never written the same again. -/
theorem Writes.render_ne (h : Writes (compileWithin depth) e κ t ξ)
    (h' : Writes (compileWithin depth) e' κ' t' ξ') (hbetween : ξ.context.Evolves κ'.context)
    (ht : t.Spelled .worded) (ht' : t'.Spelled .worded) (hselects : t.selects ≠ []) (level : Nat) :
    t'.render d level ≠ t.render d level := by
  intro heq
  obtain ⟨select, hselect⟩ := List.exists_mem_of_ne_nil _ hselects
  have hgiven := h.labels (compileWithin_evolves depth) (compileWithin_labels depth) select hselect
  have hmem := (h.mem_labels (d := d) ht level).2 hgiven
  rw [← heq, h'.mem_labels ht' level] at hmem
  exact hgiven.not_later hbetween hmem

/-- If the names of a query are words, so are those of every statement that is compiled for it. -/
theorem Query.CompilesTo.worded {scope inner : Scope} {session : Session} {q : Query}
    {compiled : Compiled} {last : Context} (h : q.CompilesTo d scope session compiled last)
    (hnames : ∀ name ∈ q.names ++ scope.names, Word name) {block : Block} {μ : Moment}
    (hv : q.Visits d scope session ⟨depth, .block inner block, μ⟩)
    (run : SelectRun (compileWithin depth) inner block μ) :
    run.compiled.select.Spelled .worded :=
  (h.holds hv run).spelled (h.spelled (σ := .worded) (compileWithin_spells trivial _) hnames)

end QueryCompiler
