import QueryCompiler.Proofs.Placeholders.Tidy

/-! # `QueryCompiler.Proofs.Placeholders.Render` — the placeholders of a written statement

The numbers of the bound values in a statement, read off its tree, are what its text shows: writing
a tidy statement loses no placeholder and makes up none.

    placeholdersIn (render tree)   =   the placeholders of the numbers in the tree
-/

namespace QueryCompiler.Sql

/-! ## Numbers of bound values -/

mutual

/-- The numbers of the bound values in an expression, in reading order. -/
def Scalar.bounds : Scalar → List Nat
  | .bound index => [index]
  | .reference .. | .named _ | .null | .countStar => []
  | .binary _ left right => left.bounds ++ right.bounds
  | .unary _ operand => operand.bounds
  | .compare _ left right => left.bounds ++ right.bounds
  | .nullTest _ operand => operand.bounds
  | .aggregate _ _ operand => operand.bounds
  | .case condition positive negative =>
    condition.bounds ++ (positive.bounds ++ negative.bounds)
  | .like value pattern => value.bounds ++ pattern.bounds
  | .inList needle values => needle.bounds ++ Scalar.boundsAll values
  | .inSelect needle select => needle.bounds ++ select.bounds

def Scalar.boundsAll : List Scalar → List Nat
  | [] => []
  | e :: es => e.bounds ++ Scalar.boundsAll es

def Scalar.boundsOption : Option Scalar → List Nat
  | none => []
  | some e => e.bounds

def Output.boundsAll : List Output → List Nat
  | [] => []
  | .mk value _ :: outputs => value.bounds ++ Output.boundsAll outputs

def Source.bounds : Source → List Nat
  | .table .. => []
  | .derived select _ => select.bounds

def Join.boundsAll : List Join → List Nat
  | [] => []
  | .mk _ _ _ outer inner :: joins => outer.bounds ++ (inner.bounds ++ Join.boundsAll joins)

def OrderItem.boundsAll : List OrderItem → List Nat
  | [] => []
  | .mk key _ :: items => key.bounds ++ OrderItem.boundsAll items

def Select.bounds : Select → List Nat
  | .mk outputs source joins filter keys having order =>
    Output.boundsAll outputs ++ (source.bounds ++ (Join.boundsAll joins ++
      (Scalar.boundsOption filter ++ (Scalar.boundsAll keys ++ (Scalar.boundsOption having ++
        OrderItem.boundsAll order)))))

end

def Change.bounds : Change → List Nat
  | .delete _ filter => Scalar.boundsOption filter
  | .update _ assignments filter =>
    assignments.flatMap (·.2.bounds) ++ Scalar.boundsOption filter
  | .insert _ values => values.flatMap (·.2.bounds)

/-! ## Tidy statements -/

mutual

/-- The names in an expression are tidy. -/
inductive Scalar.Tidy (d : Dialect) : Scalar → Prop
  | reference {qualifier field} : MarkFree d qualifier → MarkFree d field →
      Scalar.Tidy d (.reference qualifier field)
  | bound {index} : Scalar.Tidy d (.bound index)
  | named {name} : ParameterName name → Scalar.Tidy d (.named name)
  | null : Scalar.Tidy d .null
  | binary {op left right} : Scalar.Tidy d left → Scalar.Tidy d right →
      Scalar.Tidy d (.binary op left right)
  | unary {op operand} : Scalar.Tidy d operand → Scalar.Tidy d (.unary op operand)
  | compare {op left right} : Scalar.Tidy d left → Scalar.Tidy d right →
      Scalar.Tidy d (.compare op left right)
  | nullTest {negated operand} : Scalar.Tidy d operand → Scalar.Tidy d (.nullTest negated operand)
  | aggregate {func distinct operand} : Scalar.Tidy d operand →
      Scalar.Tidy d (.aggregate func distinct operand)
  | countStar : Scalar.Tidy d .countStar
  | case {condition positive negative} : Scalar.Tidy d condition → Scalar.Tidy d positive →
      Scalar.Tidy d negative → Scalar.Tidy d (.case condition positive negative)
  | like {value pattern} : Scalar.Tidy d value → Scalar.Tidy d pattern →
      Scalar.Tidy d (.like value pattern)
  | inList {needle values} : Scalar.Tidy d needle → (∀ value ∈ values, Scalar.Tidy d value) →
      Scalar.Tidy d (.inList needle values)
  | inSelect {needle select} : Scalar.Tidy d needle → Select.Tidy d select →
      Scalar.Tidy d (.inSelect needle select)

inductive Output.Tidy (d : Dialect) : Output → Prop
  | mk {value name} : Scalar.Tidy d value → MarkFree d name → Output.Tidy d (.mk value name)

inductive Source.Tidy (d : Dialect) : Source → Prop
  | table {name label} : MarkFree d name → MarkFree d label → Source.Tidy d (.table name label)
  | derived {select label} : Select.Tidy d select → MarkFree d label →
      Source.Tidy d (.derived select label)

inductive Join.Tidy (d : Dialect) : Join → Prop
  | mk {kind table label outer inner} : MarkFree d table → MarkFree d label →
      Scalar.Tidy d outer → Scalar.Tidy d inner → Join.Tidy d (.mk kind table label outer inner)

inductive OrderItem.Tidy (d : Dialect) : OrderItem → Prop
  | mk {key direction} : Scalar.Tidy d key → OrderItem.Tidy d (.mk key direction)

inductive Select.Tidy (d : Dialect) : Select → Prop
  | mk {outputs source joins filter keys having order} :
      (∀ output ∈ outputs, Output.Tidy d output) →
      Source.Tidy d source → (∀ join ∈ joins, Join.Tidy d join) →
      (∀ e ∈ filter, Scalar.Tidy d e) → (∀ key ∈ keys, Scalar.Tidy d key) →
      (∀ e ∈ having, Scalar.Tidy d e) → (∀ item ∈ order, OrderItem.Tidy d item) →
      Select.Tidy d (.mk outputs source joins filter keys having order)

end

def AssignmentTidy (d : Dialect) (a : String × Scalar) : Prop := MarkFree d a.1 ∧ a.2.Tidy d

inductive Change.Tidy (d : Dialect) : Change → Prop
  | delete {table filter} : MarkFree d table → (∀ e ∈ filter, Scalar.Tidy d e) →
      Change.Tidy d (.delete table filter)
  | update {table assignments filter} : MarkFree d table → (∀ a ∈ assignments, AssignmentTidy d a) →
      (∀ e ∈ filter, Scalar.Tidy d e) → Change.Tidy d (.update table assignments filter)
  | insert {table values} : MarkFree d table → (∀ a ∈ values, AssignmentTidy d a) →
      Change.Tidy d (.insert table values)

/-! ## Words and lines -/

variable {d : Dialect} {a b : String}

theorem markFree_binaryOp (op : BinaryOp) : MarkFree d op.symbol := by
  cases d <;> cases op <;> decide

theorem markFree_compareOp (op : CompareOp) : MarkFree d op.symbol := by
  cases d <;> cases op <;> decide

theorem markFree_unaryOp (op : UnaryOp) : MarkFree d op.symbol := by
  cases d <;> cases op <;> decide

theorem markFree_aggregateFunc (func : AggregateFunc) : MarkFree d func.symbol := by
  cases d <;> cases func <;> decide

theorem markFree_joinKind (kind : JoinKind) : MarkFree d kind.symbol := by
  cases d <;> cases kind <;> decide

theorem markFree_direction (direction : Direction) : MarkFree d direction.symbol := by
  cases d <;> cases direction <;> decide

theorem markFree_pad (level : Nat) : MarkFree d (pad level) := by
  intro h
  rw [pad, String.toList_ofList, List.mem_replicate] at h
  cases d <;> exact absurd h.2 (by decide)

/-- A word with a blank in front separates what stands around it. -/
theorem separates_blank_append (h : MarkFree d a) : Separates d (" " ++ a) := by
  refine ⟨MarkFree.append (by cases d <;> decide) h, ?_⟩
  rw [String.toList_append]
  rfl

theorem placeholdersIn_between {separator : String} (h : Separates d separator) :
    placeholdersIn d (a ++ separator ++ b) = placeholdersIn d a ++ placeholdersIn d b := by
  rw [String.append_assoc, placeholdersIn_append_right h]

theorem placeholdersIn_operator {word : String} (h : MarkFree d word) :
    placeholdersIn d (a ++ " " ++ word ++ " " ++ b) = placeholdersIn d a ++ placeholdersIn d b := by
  have hword : Separates d (" " ++ (word ++ " ")) :=
    separates_blank_append (h.append (by cases d <;> decide))
  rw [← placeholdersIn_between hword]
  simp only [String.append_assoc]

theorem placeholdersIn_wrapped {before after : String} (hb : MarkFree d before)
    (ha : Separates d after) : placeholdersIn d (before ++ a ++ after) = placeholdersIn d a := by
  rw [placeholdersIn_append_end ha, placeholdersIn_append_left hb]

theorem placeholdersIn_bracket (atomic : Bool) (text : String) :
    placeholdersIn d (bracket atomic text) = placeholdersIn d text := by
  unfold bracket
  split
  · rfl
  · exact placeholdersIn_wrapped (by cases d <;> decide) (by cases d <;> decide)

theorem placeholdersIn_commaLines (level : Nat) : ∀ lines : List String,
    (commaLines level lines).flatMap (placeholdersIn d) = lines.flatMap (placeholdersIn d)
  | [] => rfl
  | [line] => by
      simp only [commaLines, List.flatMap_cons, placeholdersIn_append_left (markFree_pad level)]
  | line :: next :: lines => by
      have hline : placeholdersIn d (pad level ++ line ++ ",") = placeholdersIn d line :=
        placeholdersIn_wrapped (markFree_pad level) (by cases d <;> decide)
      rw [commaLines, List.flatMap_cons, List.flatMap_cons, hline,
        placeholdersIn_commaLines level (next :: lines)]
      simp

theorem placeholdersIn_clauseLines (level : Nat) {word : String} (h : MarkFree d word)
    (items : List String) :
    (clauseLines level word items).flatMap (placeholdersIn d) =
      items.flatMap (placeholdersIn d) := by
  unfold clauseLines
  split
  · next hempty => rw [List.isEmpty_iff.1 hempty]
  · have hcomma : Separates d ", " := by cases d <;> decide
    simp only [List.flatMap_cons, List.flatMap_nil, List.append_nil,
      placeholdersIn_append_left (markFree_pad _), placeholdersIn_intercalate hcomma,
      placeholdersIn_of_markFree h, List.nil_append]

theorem placeholdersIn_concat :
    placeholdersIn d (d.concat a b) = placeholdersIn d a ++ placeholdersIn d b := by
  cases d with
  | sqlite => exact placeholdersIn_between (by decide)
  | _ =>
      refine (placeholdersIn_append_end (by decide)).trans ?_
      refine (placeholdersIn_between (by decide)).trans ?_
      rw [placeholdersIn_append_left (by decide)]

/-! ## Statements -/

mutual

/-- The text of a tidy expression shows the placeholders of its bound values, in order. -/
theorem Scalar.placeholdersIn_render (level : Nat) : ∀ {e : Scalar}, e.Tidy d →
    placeholdersIn d (e.render d level) = e.bounds.map (placeholder d)
  | _, .reference hq hf =>
      placeholdersIn_of_markFree ((hq.append (by cases d <;> decide)).append hf)
  | _, @Scalar.Tidy.bound _ index => placeholdersIn_placeholder d index
  | _, .named h => by
      show placeholdersIn d (d.parameterMark ++ _) = []
      rw [placeholdersIn_word d h.1, h.2]
      rfl
  | _, .null => placeholdersIn_of_markFree (show MarkFree d "NULL" by cases d <;> decide)
  | _, .countStar => placeholdersIn_of_markFree (show MarkFree d "COUNT(*)" by cases d <;> decide)
  | _, @Scalar.Tidy.binary _ op left right hl hr => by
      have hparts : placeholdersIn d (bracket left.isAtomic (left.render d level)) ++
          placeholdersIn d (bracket right.isAtomic (right.render d level)) =
            (left.bounds ++ right.bounds).map (placeholder d) := by
        rw [placeholdersIn_bracket, placeholdersIn_bracket, Scalar.placeholdersIn_render level hl,
          Scalar.placeholdersIn_render level hr, List.map_append]
      -- Concatenation is spelled by the dialect, every other operator stands between its operands.
      cases op with
      | concat => exact placeholdersIn_concat.trans hparts
      | _ => exact (placeholdersIn_operator (markFree_binaryOp _)).trans hparts
  | _, .unary h => by
      refine (placeholdersIn_append_left (markFree_unaryOp _)).trans ?_
      rw [placeholdersIn_bracket]
      exact Scalar.placeholdersIn_render level h
  | _, .compare hl hr => by
      refine (placeholdersIn_operator (markFree_compareOp _)).trans ?_
      rw [placeholdersIn_bracket, placeholdersIn_bracket, Scalar.placeholdersIn_render level hl,
        Scalar.placeholdersIn_render level hr, Scalar.bounds, List.map_append]
  | _, @Scalar.Tidy.nullTest _ negated _ h => by
      have htest : Separates d (if negated then " IS NOT NULL" else " IS NULL") := by
        cases negated <;> cases d <;> decide
      refine (placeholdersIn_append_end htest).trans ?_
      rw [placeholdersIn_bracket]
      exact Scalar.placeholdersIn_render level h
  | _, @Scalar.Tidy.aggregate _ func distinct _ h => by
      have hbefore : MarkFree d (func.symbol ++ "(" ++ (if distinct then "DISTINCT " else "")) :=
        ((markFree_aggregateFunc func).append (by cases d <;> decide)).append
          (by cases distinct <;> cases d <;> decide)
      refine (placeholdersIn_wrapped hbefore (by cases d <;> decide)).trans ?_
      exact Scalar.placeholdersIn_render level h
  | _, .case hc hp hn => by
      refine (placeholdersIn_append_end (by cases d <;> decide)).trans ?_
      rw [placeholdersIn_between (by cases d <;> decide),
        placeholdersIn_between (by cases d <;> decide),
        placeholdersIn_append_left (by cases d <;> decide), Scalar.placeholdersIn_render level hc,
        Scalar.placeholdersIn_render level hp, Scalar.placeholdersIn_render level hn, Scalar.bounds,
        List.map_append, List.map_append, List.append_assoc]
  | _, .like hv hp => by
      refine (placeholdersIn_between (by cases d <;> decide)).trans ?_
      rw [placeholdersIn_bracket, placeholdersIn_bracket, Scalar.placeholdersIn_render level hv,
        Scalar.placeholdersIn_render level hp, Scalar.bounds, List.map_append]
  | _, .inList hn hv => by
      refine (placeholdersIn_append_end (by cases d <;> decide)).trans ?_
      rw [placeholdersIn_between (by cases d <;> decide), placeholdersIn_bracket,
        placeholdersIn_intercalate (by cases d <;> decide), Scalar.placeholdersIn_render level hn,
        Scalar.placeholdersIn_renderAll level hv, Scalar.bounds, List.map_append]
  | _, @Scalar.Tidy.inSelect _ needle select hn hs => by
      have hclose : Separates d ("\n" ++ pad (level + 1) ++ ")") := by
        refine ⟨(MarkFree.append (by cases d <;> decide) (markFree_pad _)).append
          (by cases d <;> decide), ?_⟩
        rw [String.toList_append, String.toList_append]
        rfl
      have hparts := placeholdersIn_append_end
        (a := bracket needle.isAtomic (needle.render d level) ++ " IN (\n" ++
          select.render d (level + 2)) hclose
      rw [← String.append_assoc, ← String.append_assoc] at hparts
      refine hparts.trans ?_
      rw [placeholdersIn_between (by cases d <;> decide), placeholdersIn_bracket,
        Scalar.placeholdersIn_render level hn, Select.placeholdersIn_render _ hs, Scalar.bounds,
        List.map_append]

theorem Scalar.placeholdersIn_renderAll (level : Nat) : ∀ {es : List Scalar},
    (∀ e ∈ es, e.Tidy d) → (Scalar.renderAll d level es).flatMap (placeholdersIn d) =
      (Scalar.boundsAll es).map (placeholder d)
  | [], _ => rfl
  | e :: es, h => by
      rw [List.forall_mem_cons] at h
      rw [Scalar.renderAll, List.flatMap_cons, Scalar.placeholdersIn_render level h.1,
        Scalar.placeholdersIn_renderAll level h.2, Scalar.boundsAll, List.map_append]

theorem Scalar.placeholdersIn_renderOption (level : Nat) : ∀ {e : Option Scalar},
    (∀ x ∈ e, x.Tidy d) → (Scalar.renderOption d level e).flatMap (placeholdersIn d) =
      (Scalar.boundsOption e).map (placeholder d)
  | none, _ => rfl
  | some e, h => by
      rw [Scalar.renderOption, List.flatMap_cons, List.flatMap_nil, List.append_nil]
      exact Scalar.placeholdersIn_render level (h e rfl)

theorem Output.placeholdersIn_renderAll (level : Nat) : ∀ {outputs : List Output},
    (∀ o ∈ outputs, o.Tidy d) → (Output.renderAll d level outputs).flatMap (placeholdersIn d) =
      (Output.boundsAll outputs).map (placeholder d)
  | [], _ => rfl
  | .mk value name :: outputs, h => by
      rw [List.forall_mem_cons] at h
      obtain ⟨⟨hv, hn⟩, ho⟩ := h
      rw [Output.renderAll, List.flatMap_cons, placeholdersIn_between (by cases d <;> decide),
        placeholdersIn_of_markFree hn, List.append_nil, Scalar.placeholdersIn_render level hv,
        Output.placeholdersIn_renderAll level ho, Output.boundsAll, List.map_append]

theorem Source.placeholdersIn_render (level : Nat) : ∀ {source : Source}, source.Tidy d →
    (source.render d level).flatMap (placeholdersIn d) = source.bounds.map (placeholder d)
  | .table name label, .table hn hl => by
      have hfrom : MarkFree d (pad level ++ "FROM") :=
        (markFree_pad _).append (by cases d <;> decide)
      have hname : MarkFree d (pad (level + 1) ++ name ++ " " ++ label) :=
        (((markFree_pad _).append hn).append (by cases d <;> decide)).append hl
      simp only [Source.render, List.flatMap_cons, List.flatMap_nil, Source.bounds,
        placeholdersIn_of_markFree hfrom, placeholdersIn_of_markFree hname]
      rfl
  | .derived select label, .derived hs hl => by
      have hfrom : MarkFree d (pad level ++ "FROM (") :=
        (markFree_pad _).append (by cases d <;> decide)
      have hlabel : MarkFree d (pad level ++ ") " ++ label) :=
        ((markFree_pad _).append (by cases d <;> decide)).append hl
      simp only [Source.render, List.flatMap_cons, List.flatMap_nil, Source.bounds,
        placeholdersIn_of_markFree hfrom, placeholdersIn_of_markFree hlabel, List.append_nil,
        List.nil_append]
      exact Select.placeholdersIn_render _ hs

theorem Join.placeholdersIn_renderAll (level : Nat) : ∀ {joins : List Join},
    (∀ join ∈ joins, join.Tidy d) → (Join.renderAll d level joins).flatMap (placeholdersIn d) =
      (Join.boundsAll joins).map (placeholder d)
  | [], _ => rfl
  | .mk kind table label outer inner :: joins, h => by
      rw [List.forall_mem_cons] at h
      obtain ⟨⟨ht, hl, ho, hi⟩, hj⟩ := h
      have hbefore : MarkFree d
          (pad (level + 1) ++ kind.symbol ++ " " ++ table ++ " " ++ label ++ " ON ") :=
        ((((((markFree_pad _).append (markFree_joinKind kind)).append
          (by cases d <;> decide)).append ht).append (by cases d <;> decide)).append hl).append
          (by cases d <;> decide)
      rw [Join.renderAll, List.flatMap_cons, placeholdersIn_between (by cases d <;> decide),
        placeholdersIn_append_left hbefore, placeholdersIn_bracket, placeholdersIn_bracket,
        Scalar.placeholdersIn_render level ho, Scalar.placeholdersIn_render level hi,
        Join.placeholdersIn_renderAll level hj, Join.boundsAll, List.map_append, List.map_append,
        List.append_assoc]

theorem OrderItem.placeholdersIn_renderAll (level : Nat) : ∀ {items : List OrderItem},
    (∀ item ∈ items, item.Tidy d) →
      (OrderItem.renderAll d level items).flatMap (placeholdersIn d) =
        (OrderItem.boundsAll items).map (placeholder d)
  | [], _ => rfl
  | .mk key direction :: items, h => by
      rw [List.forall_mem_cons] at h
      obtain ⟨⟨hk⟩, hi⟩ := h
      rw [OrderItem.renderAll, List.flatMap_cons, String.append_assoc,
        placeholdersIn_append_end (separates_blank_append (markFree_direction direction)),
        Scalar.placeholdersIn_render level hk, OrderItem.placeholdersIn_renderAll level hi,
        OrderItem.boundsAll, List.map_append]

/-- The text of a tidy statement shows the placeholders of its bound values, in order. -/
theorem Select.placeholdersIn_render (level : Nat) : ∀ {select : Select}, select.Tidy d →
    placeholdersIn d (select.render d level) = select.bounds.map (placeholder d)
  | .mk outputs source joins filter keys having order, .mk ho hs hj hf hk hh hi => by
      have hselect : MarkFree d (pad level ++ "SELECT") :=
        (markFree_pad _).append (by cases d <;> decide)
      rw [Select.render, placeholdersIn_intercalate (by cases d <;> decide)]
      simp only [List.cons_append, List.flatMap_cons, List.flatMap_append,
        placeholdersIn_of_markFree hselect, List.nil_append, placeholdersIn_commaLines]
      rw [placeholdersIn_clauseLines level (by cases d <;> decide),
        placeholdersIn_clauseLines level (by cases d <;> decide),
        placeholdersIn_clauseLines level (by cases d <;> decide),
        placeholdersIn_clauseLines level (by cases d <;> decide),
        Output.placeholdersIn_renderAll level ho, Source.placeholdersIn_render level hs,
        Join.placeholdersIn_renderAll level hj, Scalar.placeholdersIn_renderOption level hf,
        Scalar.placeholdersIn_renderAll level hk, Scalar.placeholdersIn_renderOption level hh,
        OrderItem.placeholdersIn_renderAll level hi, Select.bounds]
      simp only [List.map_append, List.append_assoc]

end

/-! ## Statements that change rows -/

theorem placeholdersIn_append_whereSuffix {filter : Option Scalar} (h : ∀ e ∈ filter, e.Tidy d) :
    placeholdersIn d (a ++ whereSuffix d filter) =
      placeholdersIn d a ++ (Scalar.boundsOption filter).map (placeholder d) := by
  cases filter with
  | none => simp [whereSuffix, Scalar.boundsOption]
  | some e =>
      refine (placeholdersIn_append_right (by cases d <;> decide)).trans ?_
      rw [Scalar.placeholdersIn_render 0 (h e rfl), Scalar.boundsOption]

/-- Texts that are written for assignments show the placeholders of the assigned expressions. -/
theorem placeholdersIn_assignments {assignments : List (String × Scalar)}
    {write : String × Scalar → String} (hw : ∀ a ∈ assignments,
      placeholdersIn d (write a) = a.2.bounds.map (placeholder d)) :
    (assignments.map write).flatMap (placeholdersIn d) =
      (assignments.flatMap (·.2.bounds)).map (placeholder d) := by
  induction assignments with
  | nil => rfl
  | cons a rest ih =>
      rw [List.forall_mem_cons] at hw
      rw [List.map_cons, List.flatMap_cons, List.flatMap_cons, List.map_append, hw.1, ih hw.2]

theorem Change.placeholdersIn_render {change : Change} (h : change.Tidy d) :
    placeholdersIn d (change.render d) = change.bounds.map (placeholder d) := by
  cases h with
  | delete ht hf =>
      refine (placeholdersIn_append_whereSuffix hf).trans ?_
      rw [placeholdersIn_of_markFree (MarkFree.append (by cases d <;> decide) ht), List.nil_append,
        Change.bounds]
  | @update table assignments filter ht ha hf =>
      have hsettings : (assignments.map fun a => a.1 ++ " = " ++ a.2.render d 0).flatMap
          (placeholdersIn d) =
            (assignments.flatMap (·.2.bounds)).map (placeholder d) :=
        placeholdersIn_assignments fun a hmem => by
          rw [placeholdersIn_append_left ((ha a hmem).1.append (by cases d <;> decide))]
          exact Scalar.placeholdersIn_render 0 (ha a hmem).2
      have hbefore : MarkFree d ("UPDATE " ++ table ++ " SET ") :=
        (MarkFree.append (by cases d <;> decide) ht).append (by cases d <;> decide)
      refine (placeholdersIn_append_whereSuffix hf).trans ?_
      rw [placeholdersIn_append_left hbefore, placeholdersIn_intercalate (by cases d <;> decide),
        hsettings, Change.bounds, List.map_append]
  | @insert table values ht ha =>
      have hvalues : (values.map (·.2.render d 0)).flatMap (placeholdersIn d) =
          (values.flatMap (·.2.bounds)).map (placeholder d) :=
        placeholdersIn_assignments fun a hmem => Scalar.placeholdersIn_render 0 (ha a hmem).2
      have hcolumns : placeholdersIn d (String.intercalate ", " (values.map (·.1))) = [] := by
        rw [placeholdersIn_intercalate (by cases d <;> decide), List.flatMap_eq_nil_iff]
        intro column hcolumn
        obtain ⟨a, hmem, rfl⟩ := List.mem_map.1 hcolumn
        exact placeholdersIn_of_markFree (ha a hmem).1
      refine (placeholdersIn_append_end (by cases d <;> decide)).trans ?_
      rw [placeholdersIn_between (by cases d <;> decide), placeholdersIn_append_left
          ((MarkFree.append (by cases d <;> decide) ht).append (by cases d <;> decide)), hcolumns,
        placeholdersIn_intercalate (by cases d <;> decide), hvalues, Change.bounds, List.nil_append]

end QueryCompiler.Sql
