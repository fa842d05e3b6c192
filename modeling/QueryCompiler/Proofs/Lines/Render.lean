import QueryCompiler.Proofs.Characters
import QueryCompiler.Proofs.Lines.Text

/-! # `QueryCompiler.Proofs.Lines.Render` — a statement further in

A statement that is written at a deeper level is the same text with more blanks in front of each of
its lines, provided that no name in it breaks a line.  For an expression that is so from its second
line on, if it has one:

    expression at level n + k   =   indent k (expression at level n)
    statement at level n + k    =   pad k ++ indent k (statement at level n)

What names may be is said by a `Spelling`; it also says whether expressions may hold subqueries,
without which an expression stands on one line.
-/

namespace QueryCompiler

open Text (OneLine indent)

/-- How the names in a statement are spelled: all of them on one line. -/
structure Spelling where
  /-- What the names of a query may be. -/
  name : String → Prop
  /-- Characters that are in none of them, and so in no name of an output. -/
  without : List Char
  /-- What the names that references start with may be. -/
  label : String → Prop
  /-- Whether expressions may hold subqueries. -/
  subqueries : Prop
  lacks : ∀ {n}, name n → ∀ m ∈ without, m ∉ n.toList
  foreign : ∀ m ∈ without, Text.Foreign m
  lineBreak : '\n' ∈ without
  oneLine : ∀ {l}, label l → OneLine l
  aliases : ∀ n, label (Context.aliasName n)

namespace Spelling

variable {σ : Spelling} {s : String}

/-- What fields and outputs may be called. -/
def Field (σ : Spelling) (s : String) : Prop := ∀ m ∈ σ.without, m ∉ s.toList

theorem Field.oneLine (h : σ.Field s) : OneLine s := h _ σ.lineBreak

theorem oneLine_name (h : σ.name s) : OneLine s := Field.oneLine (σ.lacks h)

end Spelling

namespace Sql

mutual

/-- The names in an expression are spelled so. -/
inductive Scalar.Spelled (σ : Spelling) : Scalar → Prop
  | reference {qualifier field} : σ.label qualifier → σ.Field field →
      Scalar.Spelled σ (.reference qualifier field)
  | bound {index} : Scalar.Spelled σ (.bound index)
  | named {name} : σ.Field name → Scalar.Spelled σ (.named name)
  | null : Scalar.Spelled σ .null
  | binary {op left right} : Scalar.Spelled σ left → Scalar.Spelled σ right →
      Scalar.Spelled σ (.binary op left right)
  | unary {op operand} : Scalar.Spelled σ operand → Scalar.Spelled σ (.unary op operand)
  | compare {op left right} : Scalar.Spelled σ left → Scalar.Spelled σ right →
      Scalar.Spelled σ (.compare op left right)
  | nullTest {negated operand} : Scalar.Spelled σ operand →
      Scalar.Spelled σ (.nullTest negated operand)
  | aggregate {func distinct operand} : Scalar.Spelled σ operand →
      Scalar.Spelled σ (.aggregate func distinct operand)
  | countStar : Scalar.Spelled σ .countStar
  | case {condition positive negative} : Scalar.Spelled σ condition → Scalar.Spelled σ positive →
      Scalar.Spelled σ negative → Scalar.Spelled σ (.case condition positive negative)
  | like {value pattern} : Scalar.Spelled σ value → Scalar.Spelled σ pattern →
      Scalar.Spelled σ (.like value pattern)
  | inList {needle values} : Scalar.Spelled σ needle → (∀ value ∈ values, Scalar.Spelled σ value) →
      Scalar.Spelled σ (.inList needle values)
  | inSelect {needle select} : σ.subqueries → Scalar.Spelled σ needle → Select.Spelled σ select →
      Scalar.Spelled σ (.inSelect needle select)

inductive Output.Spelled (σ : Spelling) : Output → Prop
  | mk {value name} : Scalar.Spelled σ value → σ.Field name → Output.Spelled σ (.mk value name)

inductive Source.Spelled (σ : Spelling) : Source → Prop
  | table {name label} : σ.name name → σ.label label → Source.Spelled σ (.table name label)
  | derived {select label} : Select.Spelled σ select → σ.label label →
      Source.Spelled σ (.derived select label)

inductive Join.Spelled (σ : Spelling) : Join → Prop
  | mk {kind table label outer inner} : σ.name table → σ.label label → Scalar.Spelled σ outer →
      Scalar.Spelled σ inner → Join.Spelled σ (.mk kind table label outer inner)

inductive OrderItem.Spelled (σ : Spelling) : OrderItem → Prop
  | mk {key direction} : Scalar.Spelled σ key → OrderItem.Spelled σ (.mk key direction)

inductive Select.Spelled (σ : Spelling) : Select → Prop
  | mk {outputs source joins filter keys having order} :
      (∀ output ∈ outputs, Output.Spelled σ output) → Source.Spelled σ source →
      (∀ join ∈ joins, Join.Spelled σ join) → (∀ e ∈ filter, Scalar.Spelled σ e) →
      (∀ key ∈ keys, Scalar.Spelled σ key) → (∀ e ∈ having, Scalar.Spelled σ e) →
      (∀ item ∈ order, OrderItem.Spelled σ item) →
      Select.Spelled σ (.mk outputs source joins filter keys having order)

end

/-! ## Words and lines -/

theorem oneLine_pad (level : Nat) : OneLine (pad level) := by
  intro h
  rw [pad, String.toList_ofList, List.mem_replicate] at h
  exact absurd h.2 (by decide)

theorem oneLine_placeholder (d : Dialect) (index : Nat) : OneLine (placeholder d index) :=
  (OneLine.append (by cases d <;> decide) (by decide)).append (Text.foreign_lineBreak.toString index)

theorem oneLine_binaryOp (op : BinaryOp) : OneLine op.symbol := by
  cases op <;> decide

theorem oneLine_compareOp (op : CompareOp) : OneLine op.symbol := by
  cases op <;> decide

theorem oneLine_unaryOp (op : UnaryOp) : OneLine op.symbol := by
  cases op <;> decide

theorem oneLine_aggregateFunc (func : AggregateFunc) : OneLine func.symbol := by
  cases func <;> decide

theorem oneLine_joinKind (kind : JoinKind) : OneLine kind.symbol := by
  cases kind <;> decide

theorem oneLine_direction (direction : Direction) : OneLine direction.symbol := by
  cases direction <;> decide

theorem pad_add (level levels : Nat) : pad (level + levels) = pad levels ++ pad level := by
  rw [pad, pad, pad, ← String.ofList_append, List.replicate_append_replicate, Nat.add_comm level,
    Nat.mul_add]

variable {d : Dialect} {σ : Spelling} {levels : Nat} {a b : String}

/-- A line of a statement that is written so many levels further in. -/
def move (levels : Nat) (line : String) : String := pad levels ++ indent levels line

theorem move_pad_append (level : Nat) (text : String) :
    move levels (pad level ++ text) = pad (level + levels) ++ indent levels text := by
  rw [move, Text.indent_append, Text.indent_of_oneLine (oneLine_pad level), pad_add,
    String.append_assoc]

theorem indent_bracket (atomic : Bool) (text : String) :
    indent levels (bracket atomic text) = bracket atomic (indent levels text) := by
  unfold bracket
  split
  · rfl
  · simp (disch := decide) only [Text.indent_append, Text.indent_of_oneLine]

theorem commaLines_add (level : Nat) : ∀ texts : List String,
    commaLines (level + levels) (texts.map (indent levels)) =
      (commaLines level texts).map (move levels)
  | [] => rfl
  | [text] => by
      rw [List.map_singleton, commaLines, commaLines, List.map_singleton, move_pad_append]
  | text :: next :: texts => by
      show (pad (level + levels) ++ indent levels text ++ ",") ::
        commaLines (level + levels) ((next :: texts).map (indent levels)) =
          move levels (pad level ++ text ++ ",") :: (commaLines level (next :: texts)).map _
      rw [commaLines_add level (next :: texts), String.append_assoc, String.append_assoc,
        move_pad_append, Text.indent_append, Text.indent_of_oneLine (s := ",") (by decide)]

theorem clauseLines_add (level : Nat) {word : String} (hword : OneLine word)
    (items : List String) : clauseLines (level + levels) word (items.map (indent levels)) =
      (clauseLines level word items).map (move levels) := by
  have hempty : (items.map (indent levels)).isEmpty = items.isEmpty := by
    cases items <;> rfl
  unfold clauseLines
  rw [hempty]
  split
  · rfl
  · rw [List.map_cons, List.map_singleton, move_pad_append, move_pad_append,
      Text.indent_of_oneLine hword, Text.indent_intercalate,
      Text.indent_of_oneLine (s := ", ") (by decide), Nat.add_right_comm]

theorem indent_concat :
    indent levels (d.concat a b) = d.concat (indent levels a) (indent levels b) := by
  cases d <;> simp (disch := decide) only [Dialect.concat, Text.indent_append, Text.indent_of_oneLine]

theorem indent_operator {word : String} (h : OneLine word) :
    indent levels (a ++ " " ++ word ++ " " ++ b) =
      indent levels a ++ " " ++ word ++ " " ++ indent levels b := by
  simp (disch := first | decide | exact h) only [Text.indent_append, Text.indent_of_oneLine]

/-- Operators other than that of concatenation stand between their operands in every dialect. -/
theorem Scalar.render_binary {op : BinaryOp} (h : op ≠ .concat) {level : Nat}
    {left right : Scalar} : (Scalar.binary op left right).render d level =
      bracket left.isAtomic (left.render d level) ++ " " ++ op.symbol ++ " " ++
        bracket right.isAtomic (right.render d level) := by
  cases op with
  | concat => exact absurd rfl h
  | _ => rfl

/-! ## Statements -/

mutual

/-- An expression further in has more blanks from its second line on. -/
theorem Scalar.render_add (level : Nat) : ∀ {e : Scalar}, e.Spelled σ →
    e.render d (level + levels) = indent levels (e.render d level)
  | _, .reference hq hf =>
      (Text.indent_of_oneLine (((σ.oneLine hq).append (by decide)).append hf.oneLine)).symm
  | _, .bound => (Text.indent_of_oneLine (oneLine_placeholder d _)).symm
  | _, .named hn => (Text.indent_of_oneLine (.append (by cases d <;> decide) hn.oneLine)).symm
  | _, .null => (Text.indent_of_oneLine (s := "NULL") (by decide)).symm
  | _, .countStar => (Text.indent_of_oneLine (s := "COUNT(*)") (by decide)).symm
  | _, @Scalar.Spelled.binary _ op left right hl hr => by
      have hl := Scalar.render_add level hl
      have hr := Scalar.render_add level hr
      by_cases hop : op = .concat
      · rw [hop, Scalar.render, Scalar.render, hl, hr, indent_concat, indent_bracket, indent_bracket]
      · rw [Scalar.render_binary hop, Scalar.render_binary hop, hl, hr,
          indent_operator (oneLine_binaryOp op), indent_bracket, indent_bracket]
  | _, @Scalar.Spelled.unary _ op _ ho => by
      rw [Scalar.render, Scalar.render, Scalar.render_add level ho, Text.indent_append, indent_bracket,
        Text.indent_of_oneLine (oneLine_unaryOp op)]
  | _, @Scalar.Spelled.compare _ op _ _ hl hr => by
      rw [Scalar.render, Scalar.render, Scalar.render_add level hl, Scalar.render_add level hr,
        indent_operator (oneLine_compareOp op), indent_bracket, indent_bracket]
  | _, @Scalar.Spelled.nullTest _ negated _ ho => by
      have htest : OneLine (if negated then " IS NOT NULL" else " IS NULL") := by
        cases negated <;> decide
      rw [Scalar.render, Scalar.render, Scalar.render_add level ho, Text.indent_append,
        indent_bracket, Text.indent_of_oneLine htest]
  | _, @Scalar.Spelled.aggregate _ func distinct _ ho => by
      have hword : OneLine (func.symbol ++ "(" ++ (if distinct then "DISTINCT " else "")) :=
        ((oneLine_aggregateFunc func).append (by decide)).append (by cases distinct <;> decide)
      rw [Scalar.render, Scalar.render, Scalar.render_add level ho, Text.indent_append,
        Text.indent_append, Text.indent_of_oneLine hword, Text.indent_of_oneLine (s := ")") (by decide)]
  | _, .case hc hp hn => by
      rw [Scalar.render, Scalar.render, Scalar.render_add level hc, Scalar.render_add level hp,
        Scalar.render_add level hn]
      simp (disch := decide) only [Text.indent_append, Text.indent_of_oneLine]
  | _, .like hv hp => by
      rw [Scalar.render, Scalar.render, Scalar.render_add level hv, Scalar.render_add level hp]
      simp (disch := decide) only [Text.indent_append, Text.indent_of_oneLine, indent_bracket]
  | _, .inList hn hv => by
      rw [Scalar.render, Scalar.render, Scalar.render_add level hn, Scalar.renderAll_add level hv]
      simp (disch := decide) only [Text.indent_append, Text.indent_of_oneLine, indent_bracket,
        Text.indent_intercalate]
  | _, .inSelect _ hn hs => by
      have hs := Select.render_add (level + 2) hs
      have hopen : indent levels " IN (\n" = " IN (\n" ++ pad levels := by
        show indent levels (" IN (" ++ "\n") = " IN (" ++ "\n" ++ pad levels
        rw [Text.indent_append, Text.indent_of_oneLine (by decide), Text.indent_lineBreak,
          String.append_assoc]
      rw [Scalar.render, Scalar.render, Scalar.render_add level hn, Nat.add_right_comm level levels 2,
        hs, Nat.add_right_comm level levels 1, pad_add]
      simp (disch := first | decide | exact oneLine_pad _) only [Text.indent_append,
        Text.indent_of_oneLine, indent_bracket, hopen, Text.indent_lineBreak, String.append_assoc]

theorem Scalar.renderAll_add (level : Nat) : ∀ {es : List Scalar}, (∀ e ∈ es, e.Spelled σ) →
    Scalar.renderAll d (level + levels) es = (Scalar.renderAll d level es).map (indent levels)
  | [], _ => rfl
  | e :: es, h => by
      rw [List.forall_mem_cons] at h
      rw [Scalar.renderAll, Scalar.renderAll, Scalar.render_add level h.1,
        Scalar.renderAll_add level h.2, List.map_cons]

theorem Scalar.renderOption_add (level : Nat) : ∀ {e : Option Scalar}, (∀ x ∈ e, x.Spelled σ) →
    Scalar.renderOption d (level + levels) e = (Scalar.renderOption d level e).map (indent levels)
  | none, _ => rfl
  | some e, h => by
      rw [Scalar.renderOption, Scalar.renderOption, Scalar.render_add level (h e rfl),
        List.map_singleton]

theorem Output.renderAll_add (level : Nat) : ∀ {outputs : List Output},
    (∀ o ∈ outputs, o.Spelled σ) →
      Output.renderAll d (level + levels) outputs = (Output.renderAll d level outputs).map (indent levels)
  | [], _ => rfl
  | .mk value name :: outputs, h => by
      rw [List.forall_mem_cons] at h
      obtain ⟨⟨hv, hn⟩, ho⟩ := h
      rw [Output.renderAll, Output.renderAll, Scalar.render_add level hv,
        Output.renderAll_add level ho, List.map_cons, Text.indent_append, Text.indent_append,
        Text.indent_of_oneLine (s := " AS ") (by decide), Text.indent_of_oneLine hn.oneLine]

theorem Source.render_add (level : Nat) : ∀ {source : Source}, source.Spelled σ →
    source.render d (level + levels) = (source.render d level).map (move levels)
  | .table name label, .table hn hl => by
      have hname : OneLine (name ++ " " ++ label) :=
        ((Spelling.oneLine_name hn).append (by decide)).append (σ.oneLine hl)
      have hline : ∀ n, pad n ++ name ++ " " ++ label = pad n ++ (name ++ " " ++ label) := by
        simp only [String.append_assoc, implies_true]
      simp only [Source.render, List.map_cons, List.map_nil, hline, move_pad_append,
        Text.indent_of_oneLine hname, Text.indent_of_oneLine (s := "FROM") (by decide),
        Nat.add_right_comm level levels 1]
  | .derived select label, .derived hs hl => by
      have hlabel : OneLine (") " ++ label) := .append (by decide) (σ.oneLine hl)
      have hs := Select.render_add (level + 1) hs
      have hline : ∀ n, pad n ++ ") " ++ label = pad n ++ (") " ++ label) := by
        simp only [String.append_assoc, implies_true]
      simp only [Source.render, List.map_cons, List.map_nil, hline, move_pad_append,
        Text.indent_of_oneLine hlabel,
        Text.indent_of_oneLine (s := "FROM (") (by decide), Nat.add_right_comm level levels 1, hs]
      rfl

theorem Join.renderAll_add (level : Nat) : ∀ {joins : List Join},
    (∀ join ∈ joins, join.Spelled σ) →
      Join.renderAll d (level + levels) joins = (Join.renderAll d level joins).map (move levels)
  | [], _ => rfl
  | .mk kind table label outer inner :: joins, h => by
      rw [List.forall_mem_cons] at h
      obtain ⟨⟨ht, hl, ho, hi⟩, hj⟩ := h
      have hfront : OneLine (kind.symbol ++ " " ++ table ++ " " ++ label ++ " ON ") :=
        (((((oneLine_joinKind kind).append (by decide)).append (Spelling.oneLine_name ht)).append
          (by decide)).append (σ.oneLine hl)).append (by decide)
      have hline : ∀ front outer inner : String, front ++ kind.symbol ++ " " ++ table ++ " " ++ label ++
          " ON " ++ outer ++ " = " ++ inner =
            front ++ ((kind.symbol ++ " " ++ table ++ " " ++ label ++ " ON ") ++
              (outer ++ (" = " ++ inner))) := by
        simp only [String.append_assoc, implies_true]
      rw [Join.renderAll, Join.renderAll, List.map_cons, hline, hline]
      generalize kind.symbol ++ " " ++ table ++ " " ++ label ++ " ON " = front at hfront ⊢
      rw [move_pad_append,
        Join.renderAll_add level hj, Scalar.render_add level ho, Scalar.render_add level hi,
        Text.indent_append, Text.indent_append, Text.indent_append, Text.indent_of_oneLine hfront,
        Text.indent_of_oneLine (s := " = ") (by decide), indent_bracket, indent_bracket,
        Nat.add_right_comm]

theorem OrderItem.renderAll_add (level : Nat) : ∀ {items : List OrderItem},
    (∀ item ∈ items, item.Spelled σ) →
      OrderItem.renderAll d (level + levels) items =
        (OrderItem.renderAll d level items).map (indent levels)
  | [], _ => rfl
  | .mk key direction :: items, h => by
      rw [List.forall_mem_cons] at h
      obtain ⟨⟨hk⟩, hi⟩ := h
      rw [OrderItem.renderAll, OrderItem.renderAll, Scalar.render_add level hk,
        OrderItem.renderAll_add level hi, List.map_cons, Text.indent_append, Text.indent_append,
        Text.indent_of_oneLine (s := " ") (by decide),
        Text.indent_of_oneLine (oneLine_direction direction)]

/-- A statement further in has more blanks in front of every line. -/
theorem Select.render_add (level : Nat) : ∀ {select : Select}, select.Spelled σ →
    select.render d (level + levels) = pad levels ++ indent levels (select.render d level)
  | .mk outputs source joins filter keys having order, .mk ho hs hj hf hk hh hi => by
      have hselect : pad (level + levels) ++ "SELECT" = move levels (pad level ++ "SELECT") := by
        rw [move_pad_append, Text.indent_of_oneLine (s := "SELECT") (by decide)]
      rw [Select.render, Select.render, Text.indent_intercalate, Text.indent_lineBreak,
        Text.append_intercalate_lineBreak _ (by simp), List.map_map]
      -- each line moves on its own
      show String.intercalate "\n" _ = String.intercalate "\n" (List.map (move levels) _)
      rw [hselect, Nat.add_right_comm level levels 1, Output.renderAll_add level ho, commaLines_add,
        Source.render_add level hs, Join.renderAll_add level hj, Scalar.renderOption_add level hf,
        clauseLines_add level (by decide), Scalar.renderAll_add level hk,
        clauseLines_add level (by decide), Scalar.renderOption_add level hh,
        clauseLines_add level (by decide), OrderItem.renderAll_add level hi,
        clauseLines_add level (by decide)]
      simp only [List.map_append, List.map_cons]

end

end Sql

end QueryCompiler
