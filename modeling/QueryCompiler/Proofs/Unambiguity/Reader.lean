import QueryCompiler.Proofs.Unambiguity.Tokens

/-! # `QueryCompiler.Proofs.Unambiguity.Reader` — a written expression can be read back

A reader of expressions: it knows the tokens of a text and nothing of the tree they come from.  It
takes one operand, looks at the token behind it, and takes a second operand if that token asks for
one.  There are no precedences to know, since every operand that is not one word or a call stands
between brackets.

    read? (render e)   =   e

for every expression without subqueries whose references and parameters have readable names.  So
different expressions have different texts.
-/

namespace QueryCompiler.Sql

/-! ## Reading -/

/-- Reads something off the front of a list of tokens, and returns it with the tokens behind it. -/
abbrev Reader (α : Type) := List Token → Option (α × List Token)

/-- The tokens behind a token that must come first. -/
def expect (token : Token) : List Token → Option (List Token)
  | [] => none
  | t :: ts => if t = token then some ts else none

@[simp] theorem expect_cons (token : Token) (ts : List Token) :
    expect token (token :: ts) = some ts :=
  if_pos rfl

section

variable (read : Reader Scalar)

/-- The argument of a function over the rows of a group. -/
def readArgument (func : AggregateFunc) (ts : List Token) : Option (Scalar × List Token) :=
  -- No expression starts with `DISTINCT` or with a star, so an expression can be tried first.
  match read ts with
  | some (operand, ts) => some (.aggregate func false operand, ts)
  | none =>
    match func, ts with
    | func, .distinct :: ts => do
      let (operand, ts) ← read ts
      some (.aggregate func true operand, ts)
    | .count, .binary .mul :: ts => some (.countStar, ts)
    | _, _ => none

/-- An operand: one word, a call, or an expression between brackets. -/
def readOperand : Reader Scalar
  | .reference qualifier field :: ts => some (.reference qualifier field, ts)
  | .bound index :: ts => some (.bound index, ts)
  | .named name :: ts => some (.named name, ts)
  | .null :: ts => some (.null, ts)
  | .opening :: ts => do
    let (e, ts) ← read ts
    let ts ← expect .closing ts
    some (e, ts)
  | .aggregate func :: .opening :: ts => do
    let (e, ts) ← readArgument read func ts
    let ts ← expect .closing ts
    some (e, ts)
  | .case :: .when :: ts => do
    let (condition, ts) ← read ts
    let ts ← expect .positive ts
    let (positive, ts) ← read ts
    let ts ← expect .negative ts
    let (negative, ts) ← read ts
    let ts ← expect .done ts
    some (.case condition positive negative, ts)
  | _ => none

/-- So many expressions at most, with commas between them. -/
def readItems : Nat → Reader (List Scalar)
  | 0, _ => none
  | n + 1, ts =>
    match read ts with
    | some (e, .comma :: ts) => do
      let (es, ts) ← readItems n ts
      some (e :: es, ts)
    | some (e, ts) => some ([e], ts)
    | none => none

/-- What the token behind the first operand makes of it. -/
def readBehind (left : Scalar) : Reader Scalar
  | .binary op :: ts => do
    let (right, ts) ← readOperand read ts
    some (.binary op left right, ts)
  | .compare op :: ts => do
    let (right, ts) ← readOperand read ts
    some (.compare op left right, ts)
  | .like :: ts => do
    let (pattern, ts) ← readOperand read ts
    some (.like left pattern, ts)
  | .is :: .null :: ts => some (.nullTest false left, ts)
  | .is :: .not :: .null :: ts => some (.nullTest true left, ts)
  | .among :: .opening :: ts => do
    let (values, ts) ← readItems read ts.length ts
    let ts ← expect .closing ts
    some (.inList left values, ts)
  | ts => some (left, ts)

/-- An expression that starts with no operand. -/
def readSigned : Reader Scalar
  | .binary .sub :: ts => do
    let (operand, ts) ← readOperand read ts
    some (.unary .neg operand, ts)
  | .not :: ts => do
    let (operand, ts) ← readOperand read ts
    some (.unary .not operand, ts)
  | .concat :: .opening :: ts => do
    let (left, ts) ← readOperand read ts
    let ts ← expect .comma ts
    let (right, ts) ← readOperand read ts
    let ts ← expect .closing ts
    some (.binary .concat left right, ts)
  | _ => none

end

/-- An expression with so many expressions inside one another at most. -/
def readWithin : Nat → Reader Scalar
  | 0, _ => none
  | n + 1, ts =>
    match readOperand (readWithin n) ts with
    | some (left, ts) => readBehind (readWithin n) left ts
    | none => readSigned (readWithin n) ts

/-- The expression that a text is, as a whole. -/
def Scalar.read? (d : Dialect) (text : String) : Option Scalar :=
  match readWithin (tokensOf d text).length (tokensOf d text) with
  | some (e, []) => some e
  | _ => none

/-- The token can stand behind a whole expression. -/
def Token.ends : Token → Bool
  | .closing | .comma | .positive | .negative | .done => true
  | _ => false

/-- Nothing in front of these tokens is part of a longer expression. -/
def Ends (rest : List Token) : Prop := ∀ t ∈ rest.head?, t.ends

/-! ## Steps of the reader -/

section

variable {n : Nat} {rest : List Token}

theorem ends_nil : Ends [] := by simp [Ends]

theorem ends_cons {t : Token} (h : t.ends) (rest : List Token) : Ends (t :: rest) := by
  simpa [Ends] using h

theorem readBehind_of_ends (read : Reader Scalar) (left : Scalar) (h : Ends rest) :
    readBehind read left rest = some (left, rest) := by
  cases rest with
  | nil => rfl
  | cons t ts =>
      have ht : t.ends := h t rfl
      cases t with
      | closing | comma | positive | negative | done => rfl
      | _ => cases ht

theorem readWithin_of_operand {e : Scalar} {ts ts' : List Token}
    (h : readOperand (readWithin n) ts = some (e, ts')) :
    readWithin (n + 1) ts = readBehind (readWithin n) e ts' := by
  rw [readWithin, h]

theorem readWithin_of_signed {ts : List Token} (h : readOperand (readWithin n) ts = none) :
    readWithin (n + 1) ts = readSigned (readWithin n) ts := by
  rw [readWithin, h]

/-- No expression starts so. -/
theorem readWithin_distinct (n : Nat) (ts : List Token) :
    readWithin n (.distinct :: ts) = none := by
  cases n <;> rfl

theorem readWithin_star (n : Nat) (ts : List Token) : readWithin n (.binary .mul :: ts) = none := by
  cases n <;> rfl

end

/-! ## Expressions that can be read -/

/-- The expression has no subquery and no empty list, and its names can be read. -/
inductive Scalar.Readable : Scalar → Prop
  | reference {qualifier field} : IsName qualifier → IsName field →
      Scalar.Readable (.reference qualifier field)
  | bound {index} : Scalar.Readable (.bound index)
  | named {name} : IsName name → isNumbered name.toList = false → Scalar.Readable (.named name)
  | null : Scalar.Readable .null
  | binary {op left right} : Scalar.Readable left → Scalar.Readable right →
      Scalar.Readable (.binary op left right)
  | unary {op operand} : Scalar.Readable operand → Scalar.Readable (.unary op operand)
  | compare {op left right} : Scalar.Readable left → Scalar.Readable right →
      Scalar.Readable (.compare op left right)
  | nullTest {negated operand} : Scalar.Readable operand →
      Scalar.Readable (.nullTest negated operand)
  | aggregate {func distinct operand} : Scalar.Readable operand →
      Scalar.Readable (.aggregate func distinct operand)
  | countStar : Scalar.Readable .countStar
  | case {condition positive negative} : Scalar.Readable condition → Scalar.Readable positive →
      Scalar.Readable negative → Scalar.Readable (.case condition positive negative)
  | like {value pattern} : Scalar.Readable value → Scalar.Readable pattern →
      Scalar.Readable (.like value pattern)
  | inList {needle values} : Scalar.Readable needle → values ≠ [] →
      (∀ value ∈ values, Scalar.Readable value) → Scalar.Readable (.inList needle values)

/-- The expression is read back from its tokens, whatever stands behind them: as an operand if it is
atomic, and as a whole where an expression can end. -/
structure Scalar.ReadsBack (d : Dialect) (level : Nat) (e : Scalar) : Prop where
  atom : e.isAtomic → ∀ {n : Nat}, (e.tokens d level).length ≤ n + 1 → ∀ rest,
    readOperand (readWithin n) (e.tokens d level ++ rest) = some (e, rest)
  whole : ∀ {n : Nat}, (e.tokens d level).length ≤ n → ∀ {rest}, Ends rest →
    readWithin n (e.tokens d level ++ rest) = some (e, rest)

namespace Scalar.ReadsBack

variable {d : Dialect} {level : Nat}

/-- There is a token to read, so the reader has at least one level to go. -/
theorem whole_of_succ {e : Scalar} (hne : e.tokens d level ≠ [])
    (h : ∀ {n : Nat}, (e.tokens d level).length ≤ n + 1 → ∀ {rest}, Ends rest →
      readWithin (n + 1) (e.tokens d level ++ rest) = some (e, rest)) {n : Nat}
    (hn : (e.tokens d level).length ≤ n) {rest : List Token} (hrest : Ends rest) :
    readWithin n (e.tokens d level ++ rest) = some (e, rest) := by
  cases n with
  | zero => exact absurd (List.eq_nil_of_length_eq_zero (Nat.le_zero.1 hn)) hne
  | succ n => exact h hn hrest

/-- An atomic expression is read as a whole if it is read as an operand. -/
theorem of_atom {e : Scalar} (hne : e.tokens d level ≠ [])
    (h : ∀ {n : Nat}, (e.tokens d level).length ≤ n + 1 → ∀ rest,
      readOperand (readWithin n) (e.tokens d level ++ rest) = some (e, rest)) :
    e.ReadsBack d level := by
  refine ⟨fun _ => h, whole_of_succ hne fun hn rest hrest => ?_⟩
  rw [readWithin_of_operand (h hn rest), readBehind_of_ends _ _ hrest]

/-- An expression of one token. -/
theorem of_token {e : Scalar} {t : Token} (ht : e.tokens d level = [t])
    (h : ∀ read rest, readOperand read (t :: rest) = some (e, rest)) : e.ReadsBack d level := by
  refine of_atom (by simp [ht]) fun _ rest => ?_
  rw [ht, List.singleton_append, h]

/-- An expression that is not atomic is only ever read as a whole. -/
theorem of_whole {e : Scalar} (he : e.isAtomic = false) (hne : e.tokens d level ≠ [])
    (h : ∀ {n : Nat}, (e.tokens d level).length ≤ n + 1 → ∀ {rest}, Ends rest →
      readWithin (n + 1) (e.tokens d level ++ rest) = some (e, rest)) : e.ReadsBack d level :=
  ⟨fun ha => absurd ha (by simp [he]), whole_of_succ hne h⟩

/-- Brackets make an operand of any expression. -/
theorem operand {e : Scalar} (h : e.ReadsBack d level) {n : Nat}
    (hn : (e.operandTokens d level).length ≤ n + 1) (rest : List Token) :
    readOperand (readWithin n) (e.operandTokens d level ++ rest) = some (e, rest) := by
  by_cases ha : e.isAtomic
  · rw [operandTokens_of_isAtomic d level ha] at hn ⊢
    exact h.atom ha hn rest
  · rw [operandTokens_of_not_isAtomic d level ha] at hn ⊢
    rw [List.length_cons, List.length_append] at hn
    have hread := h.whole (n := n) (by omega) (ends_cons rfl rest : Ends (.closing :: rest))
    simp [readOperand, hread]

/-- Two operands with a token between them that asks for the second. -/
theorem of_between {e left right : Scalar} {t : Token} (he : e.isAtomic = false)
    (ht : e.tokens d level = left.operandTokens d level ++ t :: right.operandTokens d level)
    (hleft : left.ReadsBack d level) (hright : right.ReadsBack d level)
    (h : ∀ (read : Reader Scalar) (ts rest : List Token), readOperand read ts = some (right, rest) →
      readBehind read left (t :: ts) = some (e, rest)) : e.ReadsBack d level := by
  refine of_whole he (by simp [ht]) fun {n} hn rest _ => ?_
  -- Both operands have fewer tokens than the whole, so the reader within it can take them.
  rw [ht, List.length_append, List.length_cons] at hn
  rw [ht, List.append_assoc, List.cons_append,
    readWithin_of_operand (hleft.operand (by omega) _)]
  exact h _ _ _ (hright.operand (by omega) rest)

theorem unary {operand : Scalar} (op : UnaryOp) (h : operand.ReadsBack d level) :
    (Scalar.unary op operand).ReadsBack d level := by
  refine of_whole rfl (by simp [tokens_unary]) fun {n} hn rest _ => ?_
  rw [tokens_unary, List.length_cons] at hn
  have hread := h.operand (n := n) (by omega) rest
  rw [tokens_unary, List.cons_append]
  cases op <;> rw [readWithin_of_signed rfl, readSigned, hread] <;> rfl

theorem concat {left right : Scalar} (hd : d ≠ .sqlite) (hleft : left.ReadsBack d level)
    (hright : right.ReadsBack d level) : (Scalar.binary .concat left right).ReadsBack d level := by
  have ht := tokens_concat d level left right hd
  refine of_whole rfl (by simp [ht]) fun {n} hn rest _ => ?_
  rw [ht] at hn
  simp only [List.length_cons, List.length_append] at hn
  have hl := hleft.operand (n := n) (by omega)
    (.comma :: (right.operandTokens d level ++ .closing :: rest))
  have hr := hright.operand (n := n) (by omega) (.closing :: rest)
  rw [ht, List.cons_append, readWithin_of_signed rfl]
  simp [readSigned, hl, hr]

theorem binary {left right : Scalar} (op : BinaryOp) (hleft : left.ReadsBack d level)
    (hright : right.ReadsBack d level) : (Scalar.binary op left right).ReadsBack d level := by
  by_cases hop : op = .concat → d = .sqlite
  · refine of_between rfl (tokens_binary d level left right hop) hleft hright ?_
    intro read ts rest hread
    simp [readBehind, hread]
  · obtain ⟨rfl, hd⟩ := Classical.not_imp.1 hop
    exact hleft.concat hd hright

theorem nullTest {operand : Scalar} (negated : Bool) (h : operand.ReadsBack d level) :
    (Scalar.nullTest negated operand).ReadsBack d level := by
  refine of_whole rfl (by cases negated <;> simp [tokens_nullTest]) fun {n} hn rest _ => ?_
  rw [tokens_nullTest, List.length_append] at hn
  rw [tokens_nullTest, List.append_assoc, readWithin_of_operand (h.operand (by omega) _)]
  cases negated <;> rfl

theorem aggregate {operand : Scalar} (func : AggregateFunc) (distinct : Bool)
    (h : operand.ReadsBack d level) :
    (Scalar.aggregate func distinct operand).ReadsBack d level := by
  refine of_atom (by simp [tokens_aggregate]) fun {n} hn rest => ?_
  rw [tokens_aggregate] at hn
  simp only [List.length_cons, List.length_append] at hn
  have hread := h.whole (n := n) (by omega) (ends_cons rfl rest : Ends (.closing :: rest))
  cases distinct with
  | false => simp [tokens_aggregate, readOperand, readArgument, hread]
  | true => simp [tokens_aggregate, readOperand, readArgument, hread, readWithin_distinct]

theorem countStar : Scalar.countStar.ReadsBack d level := by
  refine of_atom (by simp [tokens_countStar]) fun {n} _ rest => ?_
  simp [tokens_countStar, readOperand, readArgument, readWithin_star]

theorem case {condition positive negative : Scalar} (hc : condition.ReadsBack d level)
    (hp : positive.ReadsBack d level) (hn : negative.ReadsBack d level) :
    (Scalar.case condition positive negative).ReadsBack d level := by
  refine of_atom (by simp [tokens_case]) fun {n} hlength rest => ?_
  rw [tokens_case] at hlength
  simp only [List.length_cons, List.length_append] at hlength
  have hnegative := hn.whole (n := n) (by omega) (ends_cons rfl rest : Ends (.done :: rest))
  have hpositive := hp.whole (n := n) (by omega) (ends_cons rfl
    (negative.tokens d level ++ .done :: rest) : Ends (.negative :: _))
  have hcondition := hc.whole (n := n) (by omega) (ends_cons rfl
    (positive.tokens d level ++ .negative :: (negative.tokens d level ++ .done :: rest)) :
      Ends (.positive :: _))
  simp [tokens_case, readOperand, hcondition, hpositive, hnegative]

/-- Expressions with commas between them, in front of a closing bracket. -/
theorem items {n : Nat} (rest : List Token) : ∀ {es : List Scalar}, es ≠ [] →
    (∀ e ∈ es, e.ReadsBack d level) → (itemTokens d level es).length ≤ n →
      ∀ m : Nat, es.length ≤ m →
        readItems (readWithin n) m (itemTokens d level es ++ .closing :: rest) =
          some (es, .closing :: rest)
  | [], hne, _, _, _, _ => absurd rfl hne
  | _ :: _, _, _, _, 0, hm => absurd hm (Nat.not_succ_le_zero _)
  | [e], _, h, hn, m + 1, _ => by
      rw [itemTokens] at hn ⊢
      rw [readItems, (h e List.mem_cons_self).whole hn (ends_cons rfl rest)]
  | e :: next :: es, _, h, hn, m + 1, hm => by
      rw [List.forall_mem_cons] at h
      have ht : itemTokens d level (e :: next :: es) =
        e.tokens d level ++ .comma :: itemTokens d level (next :: es) := rfl
      rw [ht, List.length_append, List.length_cons] at hn
      have hrest := items (n := n) rest (List.cons_ne_nil next es) h.2 (by omega) m
        (Nat.le_of_succ_le_succ hm)
      rw [ht, List.append_assoc, List.cons_append, readItems,
        h.1.whole (by omega) (ends_cons rfl _)]
      simp [hrest]

theorem length_le_itemTokens (d : Dialect) (level : Nat) :
    ∀ es : List Scalar, es.length ≤ (itemTokens d level es).length + 1
  | [] => Nat.zero_le _
  | [_] => Nat.le_add_left _ _
  | _ :: next :: es => by
      have hrest := length_le_itemTokens d level (next :: es)
      simp only [itemTokens, List.length_append, List.length_cons] at hrest ⊢
      omega

theorem inList {needle : Scalar} {values : List Scalar} (hneedle : needle.ReadsBack d level)
    (hne : values ≠ []) (hvalues : ∀ value ∈ values, value.ReadsBack d level) :
    (Scalar.inList needle values).ReadsBack d level := by
  refine of_whole rfl (by simp [tokens_inList]) fun {n} hn rest _ => ?_
  rw [tokens_inList] at hn
  simp only [List.length_cons, List.length_append] at hn
  have hlength := length_le_itemTokens d level values
  have hitems := items rest hne hvalues (n := n) (by omega)
    (itemTokens d level values ++ .closing :: rest).length (by simp; omega)
  rw [tokens_inList, List.append_assoc, readWithin_of_operand (hneedle.operand (by omega) _)]
  simp only [List.cons_append, List.append_assoc, List.nil_append, readBehind, hitems]
  simp

end Scalar.ReadsBack

/-! ## Texts and expressions -/

namespace Scalar

variable {d : Dialect} {level : Nat} {e e' : Scalar}

theorem Readable.readsBack (d : Dialect) (level : Nat) (h : e.Readable) : e.ReadsBack d level := by
  induction h with
  | reference hq hf =>
      refine .of_token (t := .reference _ _) ?_ fun _ _ => rfl
      rw [tokens, render]
      exact tokensOf_reference d hq hf
  | bound =>
      refine .of_token (t := .bound _) ?_ fun _ _ => rfl
      rw [tokens, render]
      exact tokensOf_placeholder d _
  | named hn hnumbered =>
      refine .of_token (t := .named _) ?_ fun _ _ => rfl
      rw [tokens, render]
      exact tokensOf_named d hn hnumbered
  | null => exact .of_token (tokens_null d level) fun _ _ => rfl
  | binary _ _ hleft hright => exact .binary _ hleft hright
  | unary _ hoperand => exact .unary _ hoperand
  | compare _ _ hleft hright =>
      refine .of_between rfl (tokens_compare d level _ _ _) hleft hright ?_
      intro read ts rest hread
      simp [readBehind, hread]
  | nullTest _ hoperand => exact .nullTest _ hoperand
  | aggregate _ hoperand => exact .aggregate _ _ hoperand
  | countStar => exact .countStar
  | case _ _ _ hc hp hn => exact .case hc hp hn
  | like _ _ hvalue hpattern =>
      refine .of_between rfl (tokens_like d level _ _) hvalue hpattern ?_
      intro read ts rest hread
      simp [readBehind, hread]
  | inList _ hne _ hneedle hvalues => exact .inList hneedle hne hvalues

/-- An expression is read back from its text. -/
theorem Readable.read?_render (d : Dialect) (level : Nat) (h : e.Readable) :
    read? d (e.render d level) = some e := by
  have hread := (h.readsBack d level).whole (Nat.le_refl _) ends_nil
  rw [List.append_nil] at hread
  unfold tokens at hread
  rw [read?, hread]

/-- Different expressions have different texts. -/
theorem Readable.eq_of_render_eq (h : e.Readable) (h' : e'.Readable)
    (heq : e.render d level = e'.render d level) : e = e' := by
  have hread : some e = some e' := by
    rw [← h.read?_render d level, heq, h'.read?_render]
  exact Option.some.inj hread

end Scalar

end QueryCompiler.Sql
