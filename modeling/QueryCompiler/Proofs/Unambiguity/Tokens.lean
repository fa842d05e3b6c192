import QueryCompiler.Proofs.Placeholders.Scan

/-! # `QueryCompiler.Proofs.Unambiguity.Tokens` — the words of a written expression

A text falls into words at its blanks, brackets, commas and minus signs.  A word with a point in it
is a reference, a word behind the mark of the dialect is a placeholder, and every other word is
looked up among the words of the language.

As with placeholders, a text can be taken apart where a word ends:

    tokensOf (a ++ " THEN " ++ b)   =   tokensOf a ++ [THEN] ++ tokensOf b

so the tokens of a written expression are known from those of its operands.
-/

namespace QueryCompiler.Sql

/-- What a word, a bracket or a sign of a text stands for. -/
inductive Token where
  | reference (qualifier field : String)
  | bound (index : Nat)
  | named (name : String)
  | null
  /-- A star counts as the sign of multiplication, also in `COUNT(*)`. -/
  | binary (op : BinaryOp)
  | compare (op : CompareOp)
  | aggregate (func : AggregateFunc)
  | not
  | is
  | among
  | like
  | distinct
  | concat
  | case
  | when
  | positive
  | negative
  | done
  | opening
  | closing
  | comma
  /-- A word that is none of the language's. -/
  | other (word : String)
deriving DecidableEq, Repr

namespace Token

/-- The words of the language, and the signs that stand between blanks. -/
def words : List (String × Token) :=
  [("NULL", .null), ("NOT", .not), ("IS", .is), ("IN", .among), ("LIKE", .like),
    ("DISTINCT", .distinct), ("CONCAT", .concat), ("CASE", .case), ("WHEN", .when),
    ("THEN", .positive), ("ELSE", .negative), ("END", .done)] ++
  [BinaryOp.add, .mul, .div, .mod, .and, .or, .concat].map (fun op => (op.symbol, .binary op)) ++
  [CompareOp.eq, .ne, .lt, .le, .gt, .ge].map (fun op => (op.symbol, .compare op)) ++
  [AggregateFunc.sum, .avg, .min, .max, .count].map (fun func => (func.symbol, .aggregate func))

/-- The tokens of a character that ends a word; a blank ends one and stands for nothing. -/
def ofDelimiter? : Char → Option (List Token)
  | ' ' => some []
  | '(' => some [.opening]
  | ')' => some [.closing]
  | ',' => some [.comma]
  | '-' => some [.binary .sub]
  | _ => none

/-- What a word stands for; the empty word stands for nothing. -/
def ofWord (d : Dialect) : List Char → List Token
  | [] => []
  | c :: cs =>
    if '.' ∈ c :: cs then
      [.reference (String.ofList ((c :: cs).takeWhile (· ≠ '.')))
        (String.ofList ((c :: cs).dropWhile (· ≠ '.')).tail)]
    else if c = d.mark then
      [if isNumbered cs then .bound (Nat.ofDigitChars 10 cs.tail 0) else .named (String.ofList cs)]
    else
      [(words.lookup (String.ofList (c :: cs))).getD (.other (String.ofList (c :: cs)))]

end Token

/-- The tokens of a text behind the word read so far. -/
def lex (d : Dialect) (word : List Char) : List Char → List Token
  | [] => Token.ofWord d word
  | c :: cs =>
    match Token.ofDelimiter? c with
    | some tokens => Token.ofWord d word ++ (tokens ++ lex d [] cs)
    | none => lex d (word ++ [c]) cs

def tokensOf (d : Dialect) (text : String) : List Token := lex d [] text.toList

/-- The text starts with a character that ends a word. -/
def StartsApart (text : String) : Prop := text.toList.head?.any (Token.ofDelimiter? · |>.isSome)

instance (text : String) : Decidable (StartsApart text) := inferInstanceAs (Decidable (_ = true))

/-- The text ends with a character that ends a word. -/
def EndsApart (text : String) : Prop := text.toList.getLast?.any (Token.ofDelimiter? · |>.isSome)

instance (text : String) : Decidable (EndsApart text) := inferInstanceAs (Decidable (_ = true))

/-- A name that can stand in a reference or behind a mark: no character of it ends a word, and none
is a point.  Words of letters, digits and underscores are names. -/
def IsName (name : String) : Prop := ∀ c ∈ name.toList, c ≠ '.' ∧ Token.ofDelimiter? c = none

instance (name : String) : Decidable (IsName name) := inferInstanceAs (Decidable (∀ c ∈ _, _))

/-! ## Taking a text apart -/

section

variable {d : Dialect} {word xs ys : List Char}

theorem lex_append_cons {c : Char} (h : (Token.ofDelimiter? c).isSome) :
    lex d word (xs ++ c :: ys) = lex d word xs ++ lex d [] (c :: ys) := by
  obtain ⟨tokens, hc⟩ := Option.isSome_iff_exists.1 h
  induction xs generalizing word with
  | nil => simp [lex, hc, Token.ofWord]
  | cons x xs ih =>
      rw [List.cons_append, lex, lex]
      cases Token.ofDelimiter? x with
      | none => exact ih
      | some _ => simp only [ih, List.append_assoc]

theorem lex_of_word (h : ∀ c ∈ xs, Token.ofDelimiter? c = none) :
    lex d word xs = Token.ofWord d (word ++ xs) := by
  induction xs generalizing word with
  | nil => rw [lex, List.append_nil]
  | cons x xs ih =>
      rw [List.forall_mem_cons] at h
      rw [lex, h.1]
      exact (ih h.2).trans (by rw [List.append_assoc, List.singleton_append])

end

section

variable {d : Dialect} {a b c : String}

/-- What starts apart leaves the words in front of it as they are. -/
theorem tokensOf_append_of_startsApart (h : StartsApart b) :
    tokensOf d (a ++ b) = tokensOf d a ++ tokensOf d b := by
  rw [tokensOf, tokensOf, tokensOf, String.toList_append]
  unfold StartsApart at h
  cases hb : b.toList with
  | nil => simp [hb] at h
  | cons x xs =>
      rw [hb] at h
      exact lex_append_cons h

/-- What ends apart leaves the words behind it as they are. -/
theorem tokensOf_append_of_endsApart (h : EndsApart a) :
    tokensOf d (a ++ b) = tokensOf d a ++ tokensOf d b := by
  rw [tokensOf, tokensOf, tokensOf, String.toList_append]
  unfold EndsApart at h
  rcases List.eq_nil_or_concat a.toList with ha | ⟨xs, x, ha⟩
  · simp [ha] at h
  · have hx : (Token.ofDelimiter? x).isSome := by simpa [ha] using h
    obtain ⟨tokens, htokens⟩ := Option.isSome_iff_exists.1 hx
    rw [ha, List.concat_eq_append, List.append_assoc, List.singleton_append, lex_append_cons hx,
      lex_append_cons hx]
    simp [lex, htokens, Token.ofWord]

/-- A text between two others that starts and ends apart keeps their words from running together. -/
theorem tokensOf_between (h : StartsApart b) (h' : EndsApart b) :
    tokensOf d (a ++ (b ++ c)) = tokensOf d a ++ (tokensOf d b ++ tokensOf d c) := by
  have hbc : StartsApart (b ++ c) := by
    unfold StartsApart at *
    rw [String.toList_append]
    cases hb : b.toList with
    | nil => simp [hb] at h
    | cons x xs => simpa [hb] using h
  rw [tokensOf_append_of_startsApart hbc, tokensOf_append_of_endsApart h']

theorem tokensOf_append_closing : tokensOf d (a ++ ")") = tokensOf d a ++ [.closing] :=
  tokensOf_append_of_startsApart (by decide)

/-- An operand in brackets. -/
theorem tokensOf_bracketed : tokensOf d ("(" ++ a ++ ")") =
    .opening :: (tokensOf d a ++ [.closing]) := by
  have hopening : tokensOf d "(" = [.opening] := rfl
  rw [String.append_assoc, tokensOf_append_of_endsApart (by decide), tokensOf_append_closing,
    hopening, List.singleton_append]

/-- Texts with a comma between them. -/
theorem tokensOf_append_comma :
    tokensOf d (a ++ (", " ++ b)) = tokensOf d a ++ .comma :: tokensOf d b :=
  tokensOf_between (by decide) (by decide)

/-- Texts with a sign or a word between them, and blanks around it. -/
theorem tokensOf_spaced : tokensOf d (a ++ " " ++ b ++ " " ++ c) =
    tokensOf d a ++ (tokensOf d b ++ tokensOf d c) := by
  have hblank : tokensOf d " " = [] := rfl
  simp only [String.append_assoc]
  rw [tokensOf_between (by decide) (by decide), tokensOf_between (by decide) (by decide), hblank,
    List.nil_append, List.nil_append]

theorem tokensOf_intercalate_cons_cons (texts : List String) :
    tokensOf d (", ".intercalate (a :: b :: texts)) =
      tokensOf d a ++ .comma :: tokensOf d (", ".intercalate (b :: texts)) := by
  rw [String.intercalate_cons_cons, String.append_assoc, tokensOf_append_comma]

end

/-! ## Words -/

theorem tokensOf_word {d : Dialect} {text : String}
    (h : ∀ c ∈ text.toList, Token.ofDelimiter? c = none) :
    tokensOf d text = Token.ofWord d text.toList :=
  lex_of_word h

/-- A reference is split at its first point. -/
theorem tokensOf_reference (d : Dialect) {qualifier field : String} (hq : IsName qualifier)
    (hf : IsName field) :
    tokensOf d (qualifier ++ "." ++ field) = [.reference qualifier field] := by
  have hlist : (qualifier ++ "." ++ field).toList = qualifier.toList ++ '.' :: field.toList := by
    simp
  have hpoints : ∀ c ∈ qualifier.toList, decide (c ≠ '.') := fun c hc => by simpa using (hq c hc).1
  rw [tokensOf_word, hlist]
  · have htake : (qualifier.toList ++ '.' :: field.toList).takeWhile (· ≠ '.') =
        qualifier.toList := by
      rw [List.takeWhile_append_of_pos hpoints]
      simp
    have hdrop : (qualifier.toList ++ '.' :: field.toList).dropWhile (· ≠ '.') =
        '.' :: field.toList := by
      rw [List.dropWhile_append_of_pos hpoints]
      simp
    cases hw : qualifier.toList ++ '.' :: field.toList with
    | nil => simp at hw
    | cons c cs =>
        rw [Token.ofWord, ← hw, if_pos (by simp), htake, hdrop, List.tail_cons,
          String.ofList_toList, String.ofList_toList]
  · intro c hc
    rw [hlist, List.mem_append, List.mem_cons] at hc
    rcases hc with hc | rfl | hc
    · exact (hq c hc).2
    · rfl
    · exact (hf c hc).2

theorem ofDelimiter?_mark (d : Dialect) : Token.ofDelimiter? d.mark = none := by cases d <;> rfl

/-- What stands behind a mark, as far as it has no point. -/
theorem tokensOf_marked (d : Dialect) {name : String} (h : IsName name) :
    tokensOf d (d.parameterMark ++ name) =
      [if isNumbered name.toList then .bound (Nat.ofDigitChars 10 name.toList.tail 0)
        else .named name] := by
  have hlist : (d.parameterMark ++ name).toList = d.mark :: name.toList := by
    rw [String.toList_append, d.parameterMark_toList, List.singleton_append]
  have hpoint : '.' ∉ d.mark :: name.toList := by
    rintro hmem
    rcases List.mem_cons.1 hmem with hmark | hmem
    · cases d <;> exact absurd hmark (by decide)
    · exact (h _ hmem).1 rfl
  rw [tokensOf_word, hlist, Token.ofWord, if_neg hpoint, if_pos rfl, String.ofList_toList]
  intro c hc
  rw [hlist, List.mem_cons] at hc
  rcases hc with rfl | hc
  · exact ofDelimiter?_mark d
  · exact (h c hc).2

theorem isName_of_isWordChar {name : String} (h : name.toList.all isWordChar) : IsName name := by
  intro c hc
  have hword : isWordChar c := List.all_eq_true.1 h c hc
  refine ⟨?_, ?_⟩
  · rintro rfl
    exact absurd hword (by decide)
  · unfold Token.ofDelimiter?
    split
    case h_6 => rfl
    all_goals exact absurd hword (by decide)

theorem tokensOf_placeholder (d : Dialect) (index : Nat) :
    tokensOf d (placeholder d index) = [.bound index] := by
  rw [placeholder, String.append_assoc,
    tokensOf_marked d (isName_of_isWordChar (all_isWordChar_numbered index)),
    if_pos (isNumbered_numbered index), toList_numbered, List.tail_cons,
    Nat.ofDigitChars_ten_toDigits]

theorem tokensOf_named (d : Dialect) {name : String} (h : IsName name)
    (hn : isNumbered name.toList = false) :
    tokensOf d (d.parameterMark ++ name) = [.named name] := by
  rw [tokensOf_marked d h, hn, if_neg Bool.false_ne_true]

/-! ## Written expressions -/

/-- The sign or word between two operands. -/
theorem tokensOf_binaryOp (d : Dialect) (op : BinaryOp) : tokensOf d op.symbol = [.binary op] := by
  cases d <;> cases op <;> rfl

theorem tokensOf_compareOp (d : Dialect) (op : CompareOp) :
    tokensOf d op.symbol = [.compare op] := by
  cases d <;> cases op <;> rfl

theorem tokensOf_aggregateFunc (d : Dialect) (func : AggregateFunc) :
    tokensOf d func.symbol = [.aggregate func] := by
  cases d <;> cases func <;> rfl

namespace Scalar

variable (d : Dialect) (level : Nat)

def tokens (e : Scalar) : List Token := tokensOf d (e.render d level)

/-- The tokens of an expression's text as an operand. -/
def operandTokens (e : Scalar) : List Token :=
  tokensOf d (bracket e.isAtomic (e.render d level))

theorem operandTokens_of_isAtomic {e : Scalar} (h : e.isAtomic) :
    e.operandTokens d level = e.tokens d level := by
  rw [operandTokens, bracket, if_pos h, tokens]

theorem operandTokens_of_not_isAtomic {e : Scalar} (h : ¬e.isAtomic) :
    e.operandTokens d level = .opening :: (e.tokens d level ++ [.closing]) := by
  rw [operandTokens, bracket, if_neg h, tokensOf_bracketed, tokens]

theorem tokens_null : tokens d level .null = [.null] := by
  rw [tokens, render]
  cases d <;> rfl

theorem tokens_binary {op : BinaryOp} (left right : Scalar) (h : op = .concat → d = .sqlite) :
    (binary op left right).tokens d level =
      left.operandTokens d level ++ .binary op :: right.operandTokens d level := by
  have hspaced : (binary op left right).render d level =
      bracket left.isAtomic (left.render d level) ++ " " ++ op.symbol ++ " " ++
        bracket right.isAtomic (right.render d level) := by
    cases op with
    | concat =>
        have hblanks : " || " = " " ++ "||" ++ " " := rfl
        simp only [h rfl, render, Dialect.concat, BinaryOp.symbol, hblanks, String.append_assoc]
    | _ => rfl
  rw [tokens, hspaced, tokensOf_spaced, tokensOf_binaryOp]
  rfl

theorem tokens_concat (left right : Scalar) (h : d ≠ .sqlite) :
    (binary .concat left right).tokens d level = .concat :: .opening ::
      (left.operandTokens d level ++ .comma :: (right.operandTokens d level ++ [.closing])) := by
  have hcall : (binary .concat left right).render d level =
      "CONCAT(" ++ (bracket left.isAtomic (left.render d level) ++ (", " ++
        (bracket right.isAtomic (right.render d level) ++ ")"))) := by
    cases d with
    | sqlite => exact absurd rfl h
    | _ => simp only [render, Dialect.concat, String.append_assoc]
  have hconcat : tokensOf d "CONCAT(" = [.concat, .opening] := by cases d <;> rfl
  rw [tokens, hcall, tokensOf_append_of_endsApart (by decide), tokensOf_append_comma,
    tokensOf_append_closing, hconcat]
  rfl

theorem tokens_unary (op : UnaryOp) (operand : Scalar) :
    (unary op operand).tokens d level =
      (match op with | .not => .not | .neg => .binary .sub) :: operand.operandTokens d level := by
  have hsymbol : tokensOf d op.symbol = [match op with | .not => .not | .neg => .binary .sub] := by
    cases d <;> cases op <;> rfl
  rw [tokens, render, tokensOf_append_of_endsApart (by cases op <;> decide), hsymbol]
  rfl

theorem tokens_compare (op : CompareOp) (left right : Scalar) :
    (compare op left right).tokens d level =
      left.operandTokens d level ++ .compare op :: right.operandTokens d level := by
  rw [tokens, render, tokensOf_spaced, tokensOf_compareOp]
  rfl

theorem tokens_nullTest (negated : Bool) (operand : Scalar) :
    (nullTest negated operand).tokens d level = operand.operandTokens d level ++
      (if negated then [.is, .not, .null] else [.is, .null]) := by
  have htest : tokensOf d (if negated then " IS NOT NULL" else " IS NULL") =
      if negated then [.is, .not, .null] else [.is, .null] := by
    cases d <;> cases negated <;> rfl
  rw [tokens, render, tokensOf_append_of_startsApart (by cases negated <;> decide), htest]
  rfl

theorem tokens_aggregate (func : AggregateFunc) (distinct : Bool) (operand : Scalar) :
    (aggregate func distinct operand).tokens d level = .aggregate func :: .opening ::
      ((if distinct then [.distinct] else []) ++ (operand.tokens d level ++ [.closing])) := by
  have hopening : tokensOf d "(" = [.opening] := rfl
  have hword : tokensOf d "DISTINCT " = [.distinct] := by cases d <;> rfl
  simp only [tokens, render, String.append_assoc]
  rw [tokensOf_between (by decide) (by decide), tokensOf_aggregateFunc, hopening]
  cases distinct with
  | false =>
      rw [if_neg Bool.false_ne_true, if_neg Bool.false_ne_true, String.empty_append,
        tokensOf_append_closing]
      rfl
  | true =>
      rw [if_pos rfl, if_pos rfl, tokensOf_append_of_endsApart (by decide),
        tokensOf_append_closing, hword]
      rfl

theorem tokens_countStar : tokens d level .countStar =
    [.aggregate .count, .opening, .binary .mul, .closing] := by
  rw [tokens, render]
  cases d <;> rfl

theorem tokens_case (condition positive negative : Scalar) :
    (case condition positive negative).tokens d level = .case :: .when ::
      (condition.tokens d level ++ .positive :: (positive.tokens d level ++
        .negative :: (negative.tokens d level ++ [.done]))) := by
  have hwhen : tokensOf d "CASE WHEN " = [.case, .when] := by cases d <;> rfl
  have hthen : tokensOf d " THEN " = [.positive] := by cases d <;> rfl
  have helse : tokensOf d " ELSE " = [.negative] := by cases d <;> rfl
  have hend : tokensOf d " END" = [.done] := by cases d <;> rfl
  simp only [tokens, render, String.append_assoc]
  rw [tokensOf_append_of_endsApart (by decide), tokensOf_between (by decide) (by decide),
    tokensOf_between (by decide) (by decide), tokensOf_append_of_startsApart (by decide), hwhen,
    hthen, helse, hend]
  rfl

theorem tokens_like (value pattern : Scalar) : (like value pattern).tokens d level =
    value.operandTokens d level ++ .like :: pattern.operandTokens d level := by
  have hlike : tokensOf d " LIKE " = [.like] := by cases d <;> rfl
  simp only [tokens, render, String.append_assoc]
  rw [tokensOf_between (by decide) (by decide), hlike]
  rfl

/-- The tokens of expressions with commas between them. -/
def itemTokens : List Scalar → List Token
  | [] => []
  | [e] => e.tokens d level
  | e :: es => e.tokens d level ++ .comma :: itemTokens es

theorem tokensOf_renderAll : ∀ es : List Scalar,
    tokensOf d (", ".intercalate (Scalar.renderAll d level es)) = itemTokens d level es
  | [] => rfl
  | [e] => by rw [renderAll, renderAll, itemTokens, String.intercalate_singleton, tokens]
  | e :: next :: es => by
      have hnext := tokensOf_renderAll (next :: es)
      rw [renderAll] at hnext
      rw [renderAll, renderAll, tokensOf_intercalate_cons_cons, hnext]
      rfl

theorem tokens_inList (needle : Scalar) (values : List Scalar) :
    (inList needle values).tokens d level = needle.operandTokens d level ++
      .among :: .opening :: (itemTokens d level values ++ [.closing]) := by
  have hamong : tokensOf d " IN (" = [.among, .opening] := by cases d <;> rfl
  simp only [tokens, render, String.append_assoc]
  rw [tokensOf_between (by decide) (by decide), tokensOf_append_closing, tokensOf_renderAll, hamong]
  rfl

end Scalar

end QueryCompiler.Sql
