import QueryCompiler.Proofs.Lines.Compile

/-! # `QueryCompiler.Proofs.Lines.Outline` — the words of a statement, read off its text

Each part of a statement stands under a word on a line of its own, joins apart, which start a line.
The outline of a text is the list of these words:

    SELECT                      select
        a1.Name AS Name
    FROM (                      opened
        SELECT                  select
            a0.Name AS Name
        FROM                    table
            Users a0
    ) a1                        closed
    WHERE                       filter
        a1.Name = :p0

Reading it takes no more than a look at each line.  Only the line below `FROM` is passed over: it
starts with the name of a table, which may be anything.  No other line starts with a name, and no
expression starts like a word, so that the outline of a statement's text is that of the statement.
-/

namespace QueryCompiler

open Text (OneLine lines)

/-- What a line of a statement may announce. -/
inductive Keyword where
  | select
  | table
  | opened
  | closed
  | join
  | filter
  | grouping
  | having
  | order
deriving DecidableEq, Repr

namespace Keyword

/-- The word of what is there, if anything is. -/
def announce {α : Type} (w : Keyword) (items : List α) : List Keyword :=
  if items.isEmpty then [] else [w]

/-! ## Reading -/

/-- Words that fill a line. -/
def words : List (String × Keyword) :=
  [("SELECT", .select), ("FROM", .table), ("FROM (", .opened), ("WHERE", .filter),
    ("GROUP BY", .grouping), ("HAVING", .having), ("ORDER BY", .order)]

/-- Words that start a line. -/
def fronts : List (String × Keyword) :=
  [(") ", .closed), ("INNER JOIN ", .join), ("LEFT JOIN ", .join)]

/-- What a line announces, blanks in front of it aside. -/
def ofLine? (line : String) : Option Keyword :=
  let cs := line.toList.dropWhile (· = ' ')
  ((words.find? (·.1.toList = cs)).or (fronts.find? (·.1.toList.isPrefixOf cs))).map (·.2)

/-- What lines announce one after another; the first is passed over if it names a table. -/
def read : Bool → List String → List Keyword
  | _, [] => []
  | true, _ :: lines => read false lines
  | false, line :: lines => (ofLine? line).toList ++ read (ofLine? line = some .table) lines

end Keyword

/-- The words of a text, line by line. -/
def Text.outline (s : String) : List Keyword := Keyword.read false (lines s)

namespace Keyword

/-- Behind the words the reading goes on as if it started there. -/
def Reads (lines : List String) (words : List Keyword) : Prop :=
  ∀ rest, read false (lines ++ rest) = words ++ read false rest

namespace Reads

variable {ls ls' : List String} {ws ws' : List Keyword} {line : String}

theorem nil : Reads [] [] := fun _ => rfl

theorem append (h : Reads ls ws) (h' : Reads ls' ws') : Reads (ls ++ ls') (ws ++ ws') := by
  intro rest
  rw [List.append_assoc, h, h', List.append_assoc]

theorem of_none (h : ofLine? line = none) : Reads [line] [] := by
  intro rest
  rw [List.singleton_append, read, h]
  rfl

theorem of_some {w : Keyword} (h : ofLine? line = some w) (hw : w ≠ .table) : Reads [line] [w] := by
  intro rest
  rw [List.singleton_append, read, h, decide_eq_false (fun he => hw (Option.some.inj he))]
  rfl

/-- The line behind that of a table is passed over. -/
theorem table {next : String} (h : ofLine? line = some .table) : Reads [line, next] [.table] := by
  intro rest
  rw [List.cons_append, read, h]
  rfl


end Reads

/-! ## Lines -/

theorem ofLine?_pad (level : Nat) (text : String) :
    ofLine? (Sql.pad level ++ text) = ofLine? text := by
  have hblanks : ∀ n, (List.replicate n ' ' ++ text.toList).dropWhile (· = ' ') =
      text.toList.dropWhile (· = ' ') := by
    intro n
    induction n with
    | zero => rfl
    | succ n ih => rw [List.replicate_succ, List.cons_append, List.dropWhile_cons_of_pos rfl, ih]
  rw [ofLine?, ofLine?, String.toList_append, Sql.pad, String.toList_ofList, hblanks]

/-- The characters do not start like a word, nor with a blank.  Of the words that an expression can
start with, `SUM` is the only one that shares its first letter with one that a line can announce. -/
def startsApart : List Char → Bool
  | [] => false
  | c :: cs => !" FWGHO)IL".toList.contains c && (c != 'S' || cs.head? == some 'U')

theorem startsApart_append {cs : List Char} (h : startsApart cs = true) (ds : List Char) :
    startsApart (cs ++ ds) = true := by
  match cs, h with
  | [c], h =>
      have hsum : (c != 'S' || none == some 'U') = true := (Bool.and_eq_true_iff.1 h).2
      rw [List.singleton_append, startsApart, Bool.and_eq_true_iff, Bool.or_eq_true_iff]
      exact ⟨(Bool.and_eq_true_iff.1 h).1, .inl (by simpa using hsum)⟩
  | _ :: _ :: _, h => exact h

/-- The text stands on one line and does not start like a word. -/
structure Inline (text : String) : Prop where
  oneLine : OneLine text
  apart : startsApart text.toList = true

theorem Inline.append {a b : String} (ha : Inline a) (hb : OneLine b) : Inline (a ++ b) :=
  ⟨ha.oneLine.append hb, by rw [String.toList_append]; exact startsApart_append ha.apart _⟩

theorem startsApart_words : ∀ w ∈ words ++ fronts, ∀ cs, startsApart (w.1.toList ++ cs) = false := by
  simp only [words, fronts, List.cons_append, List.nil_append, List.forall_mem_cons]
  exact ⟨fun _ => rfl, fun _ => rfl, fun _ => rfl, fun _ => rfl, fun _ => rfl, fun _ => rfl,
    fun _ => rfl, fun _ => rfl, fun _ => rfl, fun _ => rfl, List.forall_mem_nil _⟩

theorem Inline.ofLine?_eq {text : String} (h : Inline text) : ofLine? text = none := by
  have hapart := h.apart
  have hcs : text.toList.dropWhile (· = ' ') = text.toList := by
    cases hcs : text.toList with
    | nil => rfl
    | cons c cs =>
        rw [hcs, startsApart, Bool.and_eq_true] at hapart
        rw [List.dropWhile_cons_of_neg]
        rintro hc
        rw [of_decide_eq_true hc] at hapart
        exact absurd hapart.1 (by decide)
  -- whatever a line announces stands in front of it
  have hnone : ∀ w ∈ words ++ fronts, ¬ w.1.toList <+: text.toList := by
    rintro w hw ⟨cs, hprefix⟩
    rw [← hprefix, startsApart_words w hw] at hapart
    exact absurd hapart Bool.false_ne_true
  rw [List.forall_mem_append] at hnone
  have hwords : words.find? (·.1.toList = text.toList) = none :=
    List.find?_eq_none.2 fun w hw he => hnone.1 w hw (of_decide_eq_true he ▸ List.prefix_rfl)
  have hfronts : fronts.find? (·.1.toList.isPrefixOf text.toList) = none :=
    List.find?_eq_none.2 fun w hw he => hnone.2 w hw (List.isPrefixOf_iff_prefix.1 he)
  simp only [ofLine?, hcs, hwords, hfronts]
  rfl

theorem Inline.reads {text : String} (h : Inline text) (level : Nat) :
    Reads (lines (Sql.pad level ++ text)) [] := by
  rw [Text.lines_of_oneLine ((Sql.oneLine_pad level).append h.oneLine)]
  exact .of_none (by rw [ofLine?_pad, h.ofLine?_eq])

theorem Inline.intercalate : ∀ {texts : List String}, texts ≠ [] → (∀ text ∈ texts, Inline text) →
    Inline (String.intercalate ", " texts)
  | [], h, _ => absurd rfl h
  | [text], _, h => by
      rw [String.intercalate_singleton]
      exact h text List.mem_cons_self
  | text :: next :: texts, _, h => by
      rw [List.forall_mem_cons] at h
      rw [String.intercalate_cons_cons]
      exact (h.1.append (by decide)).append (Inline.intercalate (List.cons_ne_nil _ _) h.2).oneLine

theorem ofLine?_join (kind : JoinKind) (rest : String) :
    ofLine? (kind.symbol ++ " " ++ rest) = some .join := by
  rw [ofLine?, String.toList_append, String.toList_append]
  cases kind <;> rfl

theorem ofLine?_closed (label : String) : ofLine? (") " ++ label) = some .closed := by
  rw [ofLine?, String.toList_append]
  rfl

/-- A line that announces something. -/
theorem reads_word (word : String) (w : Keyword) (hline : OneLine word) (hw : ofLine? word = some w)
    (hne : w ≠ .table) (level : Nat) : Reads (lines (Sql.pad level ++ word)) [w] := by
  rw [Text.lines_of_oneLine ((Sql.oneLine_pad level).append hline)]
  exact .of_some (by rw [ofLine?_pad, hw]) hne

end Keyword

open Keyword (Reads Inline reads_word)

/-! ## Expressions -/

namespace Sql

variable {d : Dialect} {level : Nat}

theorem inline_bracket {text : String} (h : Inline text) (atomic : Bool) :
    Inline (bracket atomic text) := by
  cases atomic with
  | true => exact h
  | false => exact ⟨(OneLine.append (by decide) h.oneLine).append (by decide), by
      rw [bracket, if_neg Bool.false_ne_true, String.toList_append, String.toList_append]; rfl⟩

theorem inline_aliasName (n : Nat) : Inline (Context.aliasName n) :=
  ⟨Text.foreign_lineBreak.aliasName n, by rw [Context.aliasName, String.toList_append]; rfl⟩

theorem inline_parameterMark (d : Dialect) : Inline d.parameterMark := by
  cases d <;> exact ⟨by decide, by decide⟩

theorem inline_concat {a b : String} (ha : Inline a) (hb : Inline b) : Inline (d.concat a b) := by
  have hcall : Inline "CONCAT(" := ⟨by decide, by decide⟩
  cases d with
  | sqlite => exact (ha.append (by decide)).append hb.oneLine
  | _ => exact (((hcall.append ha.oneLine).append (by decide)).append hb.oneLine).append (by decide)

mutual

/-- Without subqueries, an expression stands on one line, and starts unlike a word. -/
theorem Scalar.inline_render : ∀ {e : Scalar}, e.Spelled .aliased → Inline (e.render d level)
  | _, .reference hq hf => by
      obtain ⟨n, rfl⟩ := hq
      exact ((inline_aliasName n).append (by decide)).append hf.oneLine
  | _, .bound => ((inline_parameterMark d).append (by decide)).append (Text.foreign_lineBreak.toString _)
  | _, .named hn => (inline_parameterMark d).append hn.oneLine
  | _, .null => (⟨by decide, by decide⟩ : Inline "NULL")
  | _, .countStar => (⟨by decide, by decide⟩ : Inline "COUNT(*)")
  | _, @Scalar.Spelled.binary _ op left right hl hr => by
      have hl := inline_bracket (Scalar.inline_render hl) left.isAtomic
      have hr := inline_bracket (Scalar.inline_render hr) right.isAtomic
      by_cases hop : op = .concat
      · rw [hop, Scalar.render]
        exact inline_concat hl hr
      · rw [Scalar.render_binary hop]
        exact (((hl.append (by decide)).append (oneLine_binaryOp op)).append (by decide)).append
          hr.oneLine
  | _, @Scalar.Spelled.unary _ op _ ho => by
      have hop : Inline op.symbol := by cases op <;> exact ⟨by decide, by decide⟩
      exact hop.append (inline_bracket (Scalar.inline_render ho) _).oneLine
  | _, @Scalar.Spelled.compare _ op _ _ hl hr =>
      ((((inline_bracket (Scalar.inline_render hl) _).append (by decide)).append
        (oneLine_compareOp op)).append (by decide)).append
          (inline_bracket (Scalar.inline_render hr) _).oneLine
  | _, @Scalar.Spelled.nullTest _ negated _ ho =>
      (inline_bracket (Scalar.inline_render ho) _).append (by cases negated <;> decide)
  | _, @Scalar.Spelled.aggregate _ func distinct _ ho => by
      have hfunc : Inline func.symbol := by cases func <;> exact ⟨by decide, by decide⟩
      exact (((hfunc.append (by decide)).append (by cases distinct <;> decide)).append
        (Scalar.inline_render ho).oneLine).append (by decide)
  | _, .case hc hp hn => by
      have hcase : Inline "CASE WHEN " := ⟨by decide, by decide⟩
      exact (((((hcase.append (Scalar.inline_render hc).oneLine).append (by decide)).append
        (Scalar.inline_render hp).oneLine).append (by decide)).append
          (Scalar.inline_render hn).oneLine).append (by decide)
  | _, .like hv hp =>
      ((inline_bracket (Scalar.inline_render hv) _).append (by decide)).append
        (inline_bracket (Scalar.inline_render hp) _).oneLine
  | _, .inList hn hv =>
      (((inline_bracket (Scalar.inline_render hn) _).append (by decide)).append
        (OneLine.intercalate (by decide) fun text htext =>
          (Scalar.inline_renderAll hv text htext).oneLine)).append (by decide)
  | _, .inSelect hsub _ _ => absurd hsub not_false

theorem Scalar.inline_renderAll : ∀ {es : List Scalar}, (∀ e ∈ es, e.Spelled .aliased) →
    ∀ text ∈ Scalar.renderAll d level es, Inline text
  | [], _ => List.forall_mem_nil _
  | _ :: _, h => by
      rw [List.forall_mem_cons] at h
      exact List.forall_mem_cons.2 ⟨Scalar.inline_render h.1, Scalar.inline_renderAll h.2⟩

end

theorem Scalar.inline_renderOption {e : Option Scalar} (h : ∀ x ∈ e, x.Spelled .aliased) :
    ∀ text ∈ Scalar.renderOption d level e, Inline text := by
  cases e with
  | none => exact List.forall_mem_nil _
  | some e => exact List.forall_mem_singleton.2 (Scalar.inline_render (h e rfl))

theorem Output.inline_renderAll : ∀ {outputs : List Output}, (∀ o ∈ outputs, o.Spelled .aliased) →
    ∀ text ∈ Output.renderAll d level outputs, Inline text
  | [], _ => List.forall_mem_nil _
  | .mk _ _ :: _, h => by
      rw [List.forall_mem_cons] at h
      obtain ⟨⟨hv, hn⟩, ho⟩ := h
      exact List.forall_mem_cons.2
        ⟨((Scalar.inline_render hv).append (by decide)).append hn.oneLine, Output.inline_renderAll ho⟩

theorem OrderItem.inline_renderAll : ∀ {items : List OrderItem},
    (∀ item ∈ items, item.Spelled .aliased) →
      ∀ text ∈ OrderItem.renderAll d level items, Inline text
  | [], _ => List.forall_mem_nil _
  | .mk _ direction :: _, h => by
      rw [List.forall_mem_cons] at h
      obtain ⟨⟨hk⟩, hi⟩ := h
      exact List.forall_mem_cons.2 ⟨((Scalar.inline_render hk).append (by decide)).append
        (oneLine_direction direction), OrderItem.inline_renderAll hi⟩

/-! ## Statements -/

mutual

def Select.outline : Select → List Keyword
  | .mk _ source joins filter keys having order =>
    .select :: source.outline ++ joins.map (fun _ => .join) ++
      Keyword.announce .filter filter.toList ++ Keyword.announce .grouping keys ++
      Keyword.announce .having having.toList ++ Keyword.announce .order order

def Source.outline : Source → List Keyword
  | .table .. => [.table]
  | .derived select _ => .opened :: select.outline ++ [.closed]

end

theorem reads_commaLines : ∀ {texts : List String}, (∀ text ∈ texts, Inline text) →
    Reads ((commaLines level texts).flatMap lines) []
  | [], _ => .nil
  | [text], h => by
      rw [commaLines, List.flatMap_singleton]
      exact (h text List.mem_cons_self).reads level
  | text :: next :: texts, h => by
      rw [List.forall_mem_cons] at h
      show Reads (lines (pad level ++ text ++ ",") ++ (commaLines level (next :: texts)).flatMap lines) []
      rw [String.append_assoc]
      exact ((h.1.append (by decide)).reads level).append (reads_commaLines h.2)

/-- A clause is announced by its word if it is there. -/
theorem reads_clauseLines (word : String) (w : Keyword) (hline : OneLine word)
    (hw : Keyword.ofLine? word = some w) (hne : w ≠ .table) {level : Nat} {items : List String}
    (h : ∀ item ∈ items, Inline item) :
    Reads ((clauseLines level word items).flatMap lines) (Keyword.announce w items) := by
  cases items with
  | nil => exact .nil
  | cons item items =>
      have htext := Inline.intercalate (List.cons_ne_nil item items) h
      exact (reads_word word w hline hw hne level).append ((htext.reads (level + 1)).append .nil)

theorem reads_joins : ∀ {joins : List Join}, (∀ join ∈ joins, join.Spelled .aliased) →
    Reads ((Join.renderAll d level joins).flatMap lines) (joins.map fun _ => .join)
  | [], _ => .nil
  | .mk kind table label outer inner :: joins, h => by
      rw [List.forall_mem_cons] at h
      obtain ⟨⟨ht, hl, ho, hi⟩, hj⟩ := h
      have hrest : OneLine (table ++ (" " ++ (label ++ (" ON " ++
          (bracket outer.isAtomic (outer.render d level) ++ (" = " ++
            bracket inner.isAtomic (inner.render d level))))))) :=
        (Spelling.oneLine_name ht).append (.append (by decide)
          (.append (Spelling.aliased.oneLine hl) (.append (by decide)
            ((inline_bracket (Scalar.inline_render ho) _).oneLine.append (.append (by decide)
              (inline_bracket (Scalar.inline_render hi) _).oneLine)))))
      have hline := reads_word _ .join (((oneLine_joinKind kind).append (by decide)).append hrest)
        (Keyword.ofLine?_join kind _) (by decide) (level + 1)
      rw [Join.renderAll, List.flatMap_cons]
      simp only [String.append_assoc] at hline ⊢
      exact hline.append (reads_joins hj)

mutual

/-- The words of a statement are read off its text. -/
theorem Select.reads (level : Nat) : ∀ {select : Select}, select.Spelled .aliased →
    Reads (lines (select.render d level)) select.outline
  | .mk outputs source joins filter keys having order, .mk ho hs hj hf hk hh hi => by
      have hselect := reads_word "SELECT" .select (by decide) rfl (by decide) level
      have hcondition : ∀ (w : Keyword) (e : Option Scalar),
          w.announce (Scalar.renderOption d level e) = w.announce e.toList := by
        intro _ e
        cases e <;> rfl
      have hkeys : Keyword.announce .grouping (Scalar.renderAll d level keys) =
          Keyword.announce .grouping keys := by
        cases keys <;> rfl
      have horder : Keyword.announce .order (OrderItem.renderAll d level order) =
          Keyword.announce .order order := by
        cases order with
        | nil => rfl
        | cons item items =>
            cases item
            rfl
      rw [Select.render, Text.lines_intercalate_flatMap (by simp), Select.outline, ← hcondition,
        ← hkeys, ← hcondition, ← horder]
      simp only [List.flatMap_append, List.flatMap_cons]
      refine Reads.append (.append (.append (.append (.append (.append
        (hselect.append (reads_commaLines (Output.inline_renderAll ho))) (Source.reads level hs))
        (reads_joins hj)) ?_) ?_) ?_) ?_
      · exact reads_clauseLines "WHERE" .filter (by decide) rfl (by decide)
          (Scalar.inline_renderOption hf)
      · exact reads_clauseLines "GROUP BY" .grouping (by decide) rfl (by decide)
          (Scalar.inline_renderAll hk)
      · exact reads_clauseLines "HAVING" .having (by decide) rfl (by decide)
          (Scalar.inline_renderOption hh)
      · exact reads_clauseLines "ORDER BY" .order (by decide) rfl (by decide)
          (OrderItem.inline_renderAll hi)

theorem Source.reads (level : Nat) : ∀ {source : Source}, source.Spelled .aliased →
    Reads ((source.render d level).flatMap lines) source.outline
  | .table name label, .table hn hl => by
      have hfrom : lines (pad level ++ "FROM") = [pad level ++ "FROM"] :=
        Text.lines_of_oneLine ((oneLine_pad level).append (by decide))
      have htable : lines (pad (level + 1) ++ name ++ " " ++ label) =
          [pad (level + 1) ++ name ++ " " ++ label] :=
        Text.lines_of_oneLine ((((oneLine_pad _).append (Spelling.oneLine_name hn)).append
          (by decide)).append (Spelling.aliased.oneLine hl))
      simp only [Source.render, List.flatMap_cons, List.flatMap_nil, hfrom, htable]
      exact .table (by rw [Keyword.ofLine?_pad]; rfl)
  | .derived select label, .derived hs hl => by
      have hopened := reads_word "FROM (" .opened (by decide) rfl (by decide) level
      have hclosed := reads_word _ .closed (OneLine.append (by decide) (Spelling.aliased.oneLine hl))
        (Keyword.ofLine?_closed label) (by decide) level
      simp only [Source.render, List.flatMap_cons, List.flatMap_nil, List.append_nil]
      rw [String.append_assoc]
      exact (hopened.append ((Select.reads (level + 1) hs).append hclosed))

end

/-- The outline of a statement's text is that of the statement. -/
theorem Select.outline_render {select : Select} (h : select.Spelled .aliased) (level : Nat) :
    Text.outline (select.render d level) = select.outline := by
  have hreads := Select.reads (d := d) level h []
  rwa [List.append_nil, Keyword.read, List.append_nil] at hreads

end Sql

end QueryCompiler
