import QueryCompiler.Proofs.Characters
import QueryCompiler.Sql.Render

/-! # `QueryCompiler.Proofs.Placeholders.Scan` — finding placeholders in a text

A placeholder is found in a text by its mark: what follows the mark, as far as letters, digits and
underscores go, is a word, and the two make the placeholder of a bound value if the word is `p` with
a number behind it.  Nothing but the text is looked at.

A text can be taken apart where a word ends.  In front of a character that belongs to no word the
placeholders of both parts are those of the whole:

    a ++ " AND " ++ b     the placeholders of a, then those of b
-/

namespace QueryCompiler

/-- The character in front of a placeholder. -/
def Dialect.mark : Dialect → Char
  | .sqlite => ':'
  | _ => '@'

theorem Dialect.parameterMark_toList (d : Dialect) : d.parameterMark.toList = [d.mark] := by
  cases d <;> rfl

namespace Sql

def isWordChar (c : Char) : Bool := c.isAlphanum || c = '_'

/-- The word is `p` with a number behind it. -/
def isNumbered : List Char → Bool
  | c :: d :: ds => c = 'p' && (d :: ds).all Char.isDigit
  | _ => false

/-- The placeholders of bound values behind a mark, in reading order. -/
def scan (mark : Char) : List Char → List String
  | [] => []
  | c :: cs =>
    let word := cs.takeWhile isWordChar
    if c = mark ∧ isNumbered word then String.ofList (c :: word) :: scan mark cs else scan mark cs

/-- The placeholders of bound values that a text shows, in reading order. -/
def placeholdersIn (d : Dialect) (text : String) : List String := scan d.mark text.toList

/-- The mark of the dialect does not occur in the text. -/
def MarkFree (d : Dialect) (text : String) : Prop := d.mark ∉ text.toList

instance (d : Dialect) (text : String) : Decidable (MarkFree d text) :=
  inferInstanceAs (Decidable (d.mark ∉ text.toList))

/-- The text shows no mark, and starts with a character that belongs to no word. -/
def Separates (d : Dialect) (text : String) : Prop :=
  MarkFree d text ∧ text.toList.head?.any (!isWordChar ·)

instance (d : Dialect) (text : String) : Decidable (Separates d text) :=
  inferInstanceAs (Decidable (MarkFree d text ∧ text.toList.head?.any (!isWordChar ·)))

/-! ## Taking a list of characters apart -/

section

variable {mark : Char} {xs ys : List Char}

theorem takeWhile_append_of_head? (h : ∀ c ∈ ys.head?, isWordChar c = false) :
    (xs ++ ys).takeWhile isWordChar = xs.takeWhile isWordChar := by
  induction xs with
  | nil =>
      cases ys with
      | nil => rfl
      | cons c cs => simp [h c rfl]
  | cons x xs ih => simp only [List.cons_append, List.takeWhile_cons, ih]

/-- A text in two parts, the second of which starts no word, shows the placeholders of both. -/
theorem scan_append (h : ∀ c ∈ ys.head?, isWordChar c = false) :
    scan mark (xs ++ ys) = scan mark xs ++ scan mark ys := by
  induction xs with
  | nil => rfl
  | cons x xs ih =>
      simp only [List.cons_append, scan, takeWhile_append_of_head? h, ih]
      split <;> rfl

/-- Characters other than the mark hide nothing of what comes behind them. -/
theorem scan_append_of_notMem (h : mark ∉ xs) : scan mark (xs ++ ys) = scan mark ys := by
  induction xs with
  | nil => rfl
  | cons x xs ih =>
      obtain ⟨hx, hxs⟩ := not_or.1 (List.mem_cons.not.1 h)
      simp only [List.cons_append, scan, ih hxs]
      rw [if_neg fun hm => hx hm.1.symm]

theorem scan_of_notMem (h : mark ∉ xs) : scan mark xs = [] := by
  have happend : scan mark (xs ++ []) = [] := scan_append_of_notMem h
  rwa [List.append_nil] at happend

end

/-! ## Taking a text apart -/

section

variable {d : Dialect} {a b c : String}

theorem MarkFree.append (ha : MarkFree d a) (hb : MarkFree d b) : MarkFree d (a ++ b) := by
  simp only [MarkFree, String.toList_append, List.mem_append, not_or]
  exact ⟨ha, hb⟩

theorem Separates.head (h : Separates d b) (c : String) :
    ∀ x ∈ (b ++ c).toList.head?, isWordChar x = false := by
  obtain ⟨-, h⟩ := h
  rw [String.toList_append]
  cases hb : b.toList with
  | nil => simp [hb] at h
  | cons x xs =>
      rw [hb] at h
      simpa using h

theorem placeholdersIn_of_markFree (h : MarkFree d a) : placeholdersIn d a = [] :=
  scan_of_notMem h

theorem placeholdersIn_append_left (h : MarkFree d a) :
    placeholdersIn d (a ++ b) = placeholdersIn d b := by
  rw [placeholdersIn, String.toList_append, scan_append_of_notMem h, placeholdersIn]

theorem placeholdersIn_append_right (h : Separates d b) :
    placeholdersIn d (a ++ (b ++ c)) = placeholdersIn d a ++ placeholdersIn d c := by
  rw [placeholdersIn, String.toList_append, scan_append (h.head c)]
  exact congrArg _ (placeholdersIn_append_left h.1)

theorem placeholdersIn_append_end (h : Separates d b) :
    placeholdersIn d (a ++ b) = placeholdersIn d a := by
  simpa [placeholdersIn, scan] using placeholdersIn_append_right (a := a) (c := "") h

/-- Texts with a separator between them show their placeholders one after the other. -/
theorem placeholdersIn_intercalate {separator : String} (h : Separates d separator) :
    ∀ texts : List String,
      placeholdersIn d (separator.intercalate texts) = texts.flatMap (placeholdersIn d)
  | [] => rfl
  | [text] => by simp
  | text :: next :: texts => by
      rw [String.intercalate_cons_cons, String.append_assoc, placeholdersIn_append_right h,
        placeholdersIn_intercalate h, List.flatMap_cons, List.flatMap_cons, List.flatMap_cons]

end

/-! ## Placeholders themselves -/

/-- Different numbers have different placeholders. -/
theorem placeholder_inj {d : Dialect} {i j : Nat} : placeholder d i = placeholder d j ↔ i = j := by
  constructor
  · exact fun h => Text.toString_nat_injective ((String.append_right_inj _).1 h)
  · rintro rfl
    rfl

theorem isWordChar_of_isDigit {c : Char} (h : c.isDigit) : isWordChar c := by
  simp [isWordChar, Char.isAlphanum, h]

theorem mark_ne_of_isWordChar {d : Dialect} {c : Char} (h : isWordChar c) : d.mark ≠ c := by
  rintro rfl
  cases d <;> exact absurd h (by decide)

/-- A word behind a mark is read as a whole. -/
theorem placeholdersIn_word (d : Dialect) {word : String} (h : word.toList.all isWordChar) :
    placeholdersIn d (d.parameterMark ++ word) =
      if isNumbered word.toList then [d.parameterMark ++ word] else [] := by
  have hall : ∀ c ∈ word.toList, isWordChar c := List.all_eq_true.1 h
  have hword : word.toList.takeWhile isWordChar = word.toList := by
    have happend : (word.toList ++ []).takeWhile isWordChar = word.toList ++ [] :=
      List.takeWhile_append_of_pos hall
    rwa [List.append_nil] at happend
  have hfree : d.mark ∉ word.toList := fun hm => mark_ne_of_isWordChar (d := d) (hall _ hm) rfl
  have hself : String.ofList (d.mark :: word.toList) = d.parameterMark ++ word := by
    apply String.toList_inj.1
    rw [String.toList_ofList, String.toList_append, d.parameterMark_toList, List.singleton_append]
  rw [placeholdersIn, String.toList_append, d.parameterMark_toList, List.singleton_append]
  simp only [scan, hword, true_and, scan_of_notMem hfree, hself]

theorem toList_numbered (index : Nat) :
    ("p" ++ toString index).toList = 'p' :: Nat.toDigits 10 index := by simp

theorem isDigit_of_mem_toDigits_ten {index : Nat} {c : Char} (h : c ∈ Nat.toDigits 10 index) :
    c.isDigit :=
  Nat.isDigit_of_mem_toDigits (by decide) (by decide) h

/-- What stands behind the mark of a placeholder is a word. -/
theorem all_isWordChar_numbered (index : Nat) : ("p" ++ toString index).toList.all isWordChar := by
  rw [toList_numbered, List.all_eq_true]
  intro c hc
  rcases List.mem_cons.1 hc with rfl | hc
  · decide
  · exact isWordChar_of_isDigit (isDigit_of_mem_toDigits_ten hc)

theorem isNumbered_numbered (index : Nat) : isNumbered ("p" ++ toString index).toList := by
  have hdigits : ∀ c ∈ Nat.toDigits 10 index, c.isDigit := fun _ => isDigit_of_mem_toDigits_ten
  rw [toList_numbered]
  cases hd : Nat.toDigits 10 index with
  | nil => exact absurd hd Nat.toDigits_ne_nil
  | cons c cs =>
      rw [hd] at hdigits
      simpa [isNumbered] using hdigits

theorem placeholdersIn_placeholder (d : Dialect) (index : Nat) :
    placeholdersIn d (placeholder d index) = [placeholder d index] := by
  rw [placeholder, String.append_assoc, placeholdersIn_word d (all_isWordChar_numbered index),
    if_pos (isNumbered_numbered index)]

end Sql

end QueryCompiler
