import QueryCompiler.Sql.Render

/-! # `QueryCompiler.Proofs.Lines.Text` — texts and their lines

A text is taken apart into lines at its line breaks, and put together from them again.  To move a
text further in is to put blanks behind each of its line breaks:

    indent k (a ++ b)   =   indent k a ++ indent k b
    indent k a          =   a                              if a stands on one line

so how a text that is put together from others moves is known from how these do.
-/

namespace QueryCompiler.Text

/-- The text stands on one line. -/
def OneLine (s : String) : Prop := '\n' ∉ s.toList

instance (s : String) : Decidable (OneLine s) := inferInstanceAs (Decidable ('\n' ∉ s.toList))

theorem OneLine.append {a b : String} (ha : OneLine a) (hb : OneLine b) : OneLine (a ++ b) := by
  rw [OneLine, String.toList_append, List.mem_append, not_or]
  exact ⟨ha, hb⟩

theorem OneLine.intercalate {separator : String} (hs : OneLine separator) :
    ∀ {texts : List String}, (∀ text ∈ texts, OneLine text) →
      OneLine (String.intercalate separator texts)
  | [], _ => by
      rw [String.intercalate_nil]
      decide
  | [_], h => by
      rw [String.intercalate_singleton]
      exact h _ List.mem_cons_self
  | text :: next :: texts, h => by
      rw [List.forall_mem_cons] at h
      rw [String.intercalate_cons_cons]
      exact (h.1.append hs).append (OneLine.intercalate hs h.2)

/-! ## Lines -/

def lines (s : String) : List String := (s.toList.splitOn '\n').map String.ofList

theorem intercalate_lines (s : String) : String.intercalate "\n" (lines s) = s := by
  apply String.toList_injective
  have hlists : (lines s).map String.toList = s.toList.splitOn '\n' := by
    rw [lines, List.map_map]
    exact (List.map_congr_left fun _ _ => String.toList_ofList).trans (List.map_id _)
  rw [String.toList_intercalate, hlists]
  exact List.intercalate_splitOn '\n'

theorem lines_intercalate {texts : List String} (h : ∀ text ∈ texts, OneLine text)
    (hne : texts ≠ []) : lines (String.intercalate "\n" texts) = texts := by
  have hsplit : ("\n".toList.intercalate (texts.map String.toList)).splitOn '\n' =
      texts.map String.toList :=
    List.splitOn_intercalate '\n' (List.forall_mem_map.2 h) (by simpa using hne)
  rw [lines, String.toList_intercalate, hsplit, List.map_map]
  exact (List.map_congr_left fun _ _ => String.ofList_toList).trans (List.map_id _)

theorem lines_ne_nil (s : String) : lines s ≠ [] :=
  fun h => List.splitOn_ne_nil '\n' s.toList (List.map_eq_nil_iff.1 h)

theorem lines_of_oneLine {s : String} (h : OneLine s) : lines s = [s] := by
  have hlines := lines_intercalate (List.forall_mem_singleton.2 h) (List.cons_ne_nil s [])
  rwa [String.intercalate_singleton] at hlines

theorem oneLine_of_mem_lines {s line : String} (h : line ∈ lines s) : OneLine line := by
  have hpieces : ∀ cs : List Char, ∀ piece ∈ cs.splitOnP (· == '\n'), '\n' ∉ piece := by
    intro cs
    induction cs with
    | nil => simp [List.splitOnP_nil]
    | cons c cs ih =>
        obtain ⟨first, rest, hcs⟩ := List.exists_cons_of_ne_nil (List.splitOnP_ne_nil (· == '\n') cs)
        rw [hcs, List.forall_mem_cons] at ih
        rw [List.splitOnP_cons_eq_if_modifyHead, hcs]
        split
        · simpa using ih
        · next hc =>
            refine List.forall_mem_cons.2 ⟨?_, ih.2⟩
            rw [List.mem_cons, not_or]
            exact ⟨fun he => hc (beq_iff_eq.2 he.symm), ih.1⟩
  obtain ⟨piece, hpiece, rfl⟩ := List.mem_map.1 h
  rw [OneLine, String.toList_ofList]
  exact hpieces _ piece hpiece

/-- The lines of texts under each other are those of each of them. -/
theorem lines_intercalate_flatMap {texts : List String} (h : texts ≠ []) :
    lines (String.intercalate "\n" texts) = texts.flatMap lines := by
  have hjoin : ∀ texts : List String, texts ≠ [] → String.intercalate "\n" texts =
      String.intercalate "\n" (texts.flatMap lines) := by
    intro texts
    induction texts with
    | nil => exact fun h => absurd rfl h
    | cons text texts ih =>
        intro _
        cases texts with
        | nil => rw [List.flatMap_singleton, intercalate_lines, String.intercalate_singleton]
        | cons next texts =>
            have hrest : (next :: texts).flatMap lines ≠ [] := by
              simp [lines_ne_nil]
            rw [String.intercalate_cons_cons, ih (List.cons_ne_nil _ _), List.flatMap_cons (x := text),
              String.intercalate_append_of_ne_nil (lines_ne_nil text) hrest, intercalate_lines]
  rw [hjoin texts h]
  refine lines_intercalate (fun line hline => ?_) ?_
  · obtain ⟨text, -, hmem⟩ := List.mem_flatMap.1 hline
    exact oneLine_of_mem_lines hmem
  · obtain ⟨text, rest, rfl⟩ := List.exists_cons_of_ne_nil h
    simp [lines_ne_nil]

/-! ## Moving a text further in -/

/-- What becomes of a character of a text that moves so many levels further in. -/
def indentChar (levels : Nat) (c : Char) : List Char :=
  if c = '\n' then c :: (Sql.pad levels).toList else [c]

/-- The text with the blanks of so many levels behind each line break. -/
def indent (levels : Nat) (s : String) : String :=
  String.ofList (s.toList.flatMap (indentChar levels))

variable {levels : Nat}

theorem indent_append (a b : String) : indent levels (a ++ b) = indent levels a ++ indent levels b := by
  rw [indent, String.toList_append, List.flatMap_append, String.ofList_append]
  rfl

theorem indent_of_oneLine {s : String} (h : OneLine s) : indent levels s = s := by
  have hchars : ∀ cs : List Char, '\n' ∉ cs → cs.flatMap (indentChar levels) = cs := by
    intro cs
    induction cs with
    | nil => exact fun _ => rfl
    | cons c cs ih =>
        intro hcs
        rw [List.mem_cons, not_or] at hcs
        rw [List.flatMap_cons, ih hcs.2, indentChar, if_neg (Ne.symm hcs.1)]
        rfl
  rw [indent, hchars _ h, String.ofList_toList]

theorem indent_lineBreak : indent levels "\n" = "\n" ++ Sql.pad levels := by
  apply String.toList_injective
  rw [indent, String.toList_ofList, String.toList_append]
  exact List.append_nil _

theorem indent_intercalate (separator : String) : ∀ texts : List String,
    indent levels (String.intercalate separator texts) =
      String.intercalate (indent levels separator) (texts.map (indent levels))
  | [] => by
      rw [String.intercalate_nil, List.map_nil, String.intercalate_nil]
      exact indent_of_oneLine (by decide)
  | [text] => by
      rw [String.intercalate_singleton, List.map_singleton, String.intercalate_singleton]
  | text :: next :: texts => by
      rw [String.intercalate_cons_cons, List.map_cons, List.map_cons, String.intercalate_cons_cons,
        indent_append, indent_append, indent_intercalate separator (next :: texts), List.map_cons]

/-- Blanks in front of each part are blanks behind the breaks between them, and in front. -/
theorem append_intercalate_lineBreak (front : String) : ∀ {texts : List String}, texts ≠ [] →
    front ++ String.intercalate ("\n" ++ front) texts =
      String.intercalate "\n" (texts.map (front ++ ·))
  | [], h => absurd rfl h
  | [text], _ => by
      rw [String.intercalate_singleton, List.map_singleton, String.intercalate_singleton]
  | text :: next :: texts, _ => by
      have ih := append_intercalate_lineBreak front (List.cons_ne_nil next texts)
      rw [String.intercalate_cons_cons, List.map_cons, List.map_cons, String.intercalate_cons_cons,
        ← List.map_cons, ← ih]
      simp only [String.append_assoc]

/-- A text moves further in line by line. -/
theorem pad_append_indent (s : String) :
    Sql.pad levels ++ indent levels s =
      String.intercalate "\n" ((lines s).map (Sql.pad levels ++ ·)) := by
  have hmap : (lines s).map (indent levels) = lines s :=
    (List.map_congr_left fun _ h => indent_of_oneLine (oneLine_of_mem_lines h)).trans (List.map_id _)
  have hindent : indent levels s = String.intercalate ("\n" ++ Sql.pad levels) (lines s) := by
    rw [← indent_lineBreak, ← congrArg (String.intercalate _) hmap, ← indent_intercalate,
      intercalate_lines]
  rw [hindent, append_intercalate_lineBreak _ (lines_ne_nil s)]

end QueryCompiler.Text
