import QueryCompiler.Proofs.Lines.Compile
import QueryCompiler.Proofs.Sealing.Clauses

/-! # `QueryCompiler.Proofs.Lines.Labels` — the aliases of a statement, read off its text

An alias stands in a text as a word of its own where the source that it is given to is named, and
only there: what is read from the source has a point behind the alias.

    SELECT
        a2.Id AS Id
    FROM (
        SELECT
            a0.Id AS Id
        FROM
            customers a0                      a0
    ) a2                                      a2
        INNER JOIN orders a3 ON ...           a3

So the aliases are found word by word, with one exception: the word behind `AS` names an output, and
this may be anything.  Numbers are put behind the names of outputs to tell them apart, so one that
looks like an alias can come up even if no name of the query does.
-/

namespace QueryCompiler

open Context (aliasName)

/-! ## Reading -/

namespace Text

/-- Words end at blanks and line breaks. -/
def isGap (c : Char) : Bool := c = ' ' || c = '\n'

/-- No word ends here. -/
def unbroken (cs : List Char) : Bool := cs.all fun c => !isGap c

theorem unbroken_append (cs cs' : List Char) :
    unbroken (cs ++ cs') = (unbroken cs && unbroken cs') :=
  List.all_append

/-- An `a` and a number. -/
def isAlias : List Char → Bool
  | 'a' :: c :: cs => (c :: cs).all Char.isDigit
  | _ => false

/-- The aliases among the words to come, given the word that is being read and whether it names an
output. -/
def readLabels : Bool → List Char → List Char → List String
  | _, _, [] => []
  | named, word, c :: cs =>
    if isGap c then
      (if !named && isAlias word then [String.ofList word] else []) ++
        readLabels (!named && word = "AS".toList) [] cs
    else readLabels named (word ++ [c]) cs

/-- The aliases that are given to sources in a text. -/
def labels (s : String) : List String := readLabels false [] (s.toList ++ ['\n'])

/-- A word that can stand for a table: it is not taken for an alias, nor for what goes before the
name of an output. -/
structure Word (s : String) : Prop where
  unbroken : unbroken s.toList = true
  notAlias : isAlias s.toList = false
  notAs : s ≠ "AS"

instance (s : String) : Decidable (Word s) :=
  decidable_of_iff (unbroken s.toList = true ∧ isAlias s.toList = false ∧ s ≠ "AS")
    ⟨fun ⟨h₁, h₂, h₃⟩ => ⟨h₁, h₂, h₃⟩, fun ⟨h₁, h₂, h₃⟩ => ⟨h₁, h₂, h₃⟩⟩

/-- The character is neither in an alias nor in `AS`. -/
def isApart (c : Char) : Bool := !(c.isDigit || "aAS".toList.contains c)

/-- Nothing has been read of the word, or enough to see that it is no alias and not `AS`. -/
def settled (word : List Char) : Bool := word.isEmpty || word.any isApart

theorem settled_append {word cs : List Char} (hword : settled word = true) (hcs : settled cs = true) :
    settled (word ++ cs) = true := by
  cases word with
  | nil => exact hcs
  | cons c word =>
      have hsome : (c :: word).any isApart = true := by simpa [settled] using hword
      rw [settled, List.any_append, hsome, Bool.true_or, Bool.or_true]

theorem isAlias_of_settled {word : List Char} (h : settled word = true) : isAlias word = false := by
  unfold isAlias
  split
  · next c cs =>
      rw [Bool.eq_false_iff]
      intro hdigits
      have hapart : ∀ x ∈ c :: cs, isApart x = false := by
        intro x hx
        rw [isApart, List.all_eq_true.1 hdigits x hx]
        rfl
      have hany : ('a' :: c :: cs).any isApart = true := by simpa [settled] using h
      rw [List.any_eq_true] at hany
      obtain ⟨x, hx, hap⟩ := hany
      rcases List.mem_cons.1 hx with rfl | hx
      · exact absurd hap (by decide)
      · rw [hapart x hx] at hap
        exact absurd hap Bool.false_ne_true
  · rfl

theorem ne_as_of_settled {word : List Char} (h : settled word = true) : word ≠ "AS".toList := by
  rintro rfl
  exact absurd h (by decide)

/-! ## Texts without names -/

/-- Every word of the text is settled. -/
def quiet : List Char → List Char → Bool
  | word, [] => settled word
  | word, c :: cs => if isGap c then settled word && quiet [] cs else quiet (word ++ [c]) cs

/-- Within settled words, the text has these aliases, in some order. -/
def Reads (text : String) (ls : List String) : Prop :=
  ∀ word rest, settled word = true → ∃ word' ls', settled word' = true ∧ ls'.Perm ls ∧
    readLabels false word (text.toList ++ rest) = ls' ++ readLabels false word' rest

/-- On lines of their own the texts have these aliases, in some order. -/
def ReadsLines (texts ls : List String) : Prop :=
  ∀ rest, ∃ ls', ls'.Perm ls ∧
    readLabels false [] (texts.flatMap (fun text => text.toList ++ ['\n']) ++ rest) =
      ls' ++ readLabels false [] rest

variable {a b text : String} {ls ls' texts texts' : List String} {word rest : List Char}

/-- Behind a settled word the reading starts anew. -/
theorem readLabels_gap (h : settled word = true) {c : Char} (hc : isGap c = true) :
    readLabels false word (c :: rest) = readLabels false [] rest := by
  rw [readLabels, if_pos hc, isAlias_of_settled h, decide_eq_false (ne_as_of_settled h)]
  rfl

/-- A word is read to its end. -/
theorem readLabels_append (named : Bool) : ∀ {cs word : List Char},
    unbroken cs = true →
      readLabels named word (cs ++ rest) = readLabels named (word ++ cs) rest
  | [], _, _ => by rw [List.nil_append, List.append_nil]
  | c :: cs, word, h => by
      rw [unbroken, List.all_cons, Bool.and_eq_true, Bool.not_eq_true'] at h
      rw [List.cons_append, readLabels, h.1, if_neg Bool.false_ne_true, readLabels_append named h.2,
        List.append_assoc, List.singleton_append]

/-- No alias is read where every word is settled, and the word at the end is settled as well. -/
theorem exists_readLabels_of_quiet (rest : List Char) {cs front : List Char}
    (hfront : settled front = true) (hcs : quiet word cs = true) : ∃ word', settled word' = true ∧
      readLabels false (front ++ word) (cs ++ rest) = readLabels false word' rest := by
  induction cs generalizing front word with
  | nil => exact ⟨front ++ word, settled_append hfront hcs, rfl⟩
  | cons c cs ih =>
      rw [quiet] at hcs
      split at hcs
      · next hc =>
          rw [Bool.and_eq_true] at hcs
          rw [List.cons_append, readLabels_gap (settled_append hfront hcs.1) hc]
          exact ih (show settled [] = true from rfl) hcs.2
      · next hc =>
          rw [List.cons_append, readLabels, if_neg hc, List.append_assoc]
          exact ih hfront hcs

namespace Reads

theorem append (ha : Reads a ls) (hb : Reads b ls') : Reads (a ++ b) (ls ++ ls') := by
  intro word rest hword
  obtain ⟨word₁, ls₁, hword₁, hperm₁, ha⟩ := ha word (b.toList ++ rest) hword
  obtain ⟨word₂, ls₂, hword₂, hperm₂, hb⟩ := hb word₁ rest hword₁
  refine ⟨word₂, ls₁ ++ ls₂, hword₂, hperm₁.append hperm₂, ?_⟩
  rw [String.toList_append, List.append_assoc, ha, hb, List.append_assoc]

theorem before (ha : Reads a ls) (hb : Reads b []) : Reads (a ++ b) ls :=
  List.append_nil ls ▸ ha.append hb

theorem behind (ha : Reads a []) (hb : Reads b ls) : Reads (a ++ b) ls := ha.append hb

theorem of_quiet (text : String) (h : quiet [] text.toList = true) : Reads text [] := by
  intro word rest hword
  obtain ⟨word', hword', hread⟩ := exists_readLabels_of_quiet rest hword h
  rw [List.append_nil] at hread
  exact ⟨word', [], hword', .nil, hread⟩

/-- A word that is settled by what it starts with. -/
theorem of_front (ha : settled a.toList = true) (hne : a.toList ≠ [])
    (hwords : unbroken (a ++ b).toList = true) : Reads (a ++ b) [] := by
  intro word rest hword
  have hsome : a.toList.any isApart = true := by
    rw [settled, Bool.or_eq_true, List.isEmpty_iff] at ha
    exact ha.resolve_left hne
  refine ⟨word ++ (a ++ b).toList, [], ?_, .nil, readLabels_append false hwords⟩
  rw [settled, List.any_append, String.toList_append, List.any_append, hsome, Bool.true_or,
    Bool.or_true, Bool.or_true]

theorem pad (level : Nat) : Reads (Sql.pad level) [] := by
  refine of_quiet _ ?_
  rw [Sql.pad, String.toList_ofList]
  induction 4 * level with
  | zero => rfl
  | succ n ih => exact ih

theorem perm_labels (h : Reads text ls) : (labels text).Perm ls := by
  obtain ⟨word, ls', hword, hperm, hread⟩ := h [] ['\n'] rfl
  rw [labels, hread, readLabels_gap hword rfl, readLabels, List.append_nil]
  exact hperm

end Reads

theorem toList_intercalate_lineBreak : ∀ {texts : List String}, texts ≠ [] →
    (String.intercalate "\n" texts).toList ++ ['\n'] =
      texts.flatMap fun text => text.toList ++ ['\n']
  | [_], _ => by rw [String.intercalate_singleton, List.flatMap_singleton]
  | _ :: next :: texts, _ => by
      rw [String.intercalate_cons_cons, List.flatMap_cons,
        ← toList_intercalate_lineBreak (List.cons_ne_nil next texts)]
      simp [String.toList_append]

namespace ReadsLines

theorem nil : ReadsLines [] [] := fun _ => ⟨[], .nil, rfl⟩

theorem append (h : ReadsLines texts ls) (h' : ReadsLines texts' ls') :
    ReadsLines (texts ++ texts') (ls ++ ls') := by
  intro rest
  obtain ⟨ls₁, hperm₁, h⟩ := h (texts'.flatMap (fun text => text.toList ++ ['\n']) ++ rest)
  obtain ⟨ls₂, hperm₂, h'⟩ := h' rest
  refine ⟨ls₁ ++ ls₂, hperm₁.append hperm₂, ?_⟩
  rw [List.flatMap_append, List.append_assoc, h, h', List.append_assoc]

theorem perm (h : ReadsLines texts ls) (hperm : ls.Perm ls') : ReadsLines texts ls' := by
  intro rest
  obtain ⟨ls₁, hperm₁, h⟩ := h rest
  exact ⟨ls₁, hperm₁.trans hperm, h⟩

theorem of_reads (h : Reads text ls) : ReadsLines [text] ls := by
  intro rest
  obtain ⟨word, ls', hword, hperm, hread⟩ := h [] ('\n' :: rest) rfl
  refine ⟨ls', hperm, ?_⟩
  rw [List.flatMap_singleton, List.append_assoc, List.singleton_append, hread,
    readLabels_gap hword rfl]

/-- What stands behind `AS` is passed over. -/
theorem of_output (h : Reads a ls) (hname : unbroken b.toList = true) :
    ReadsLines [a ++ " AS " ++ b] ls := by
  intro rest
  obtain ⟨word, ls', hword, hperm, hread⟩ := h [] (" AS ".toList ++ (b.toList ++ '\n' :: rest)) rfl
  refine ⟨ls', hperm, ?_⟩
  have has : ∀ cs, readLabels false word (" AS ".toList ++ cs) = readLabels true [] cs :=
    fun _ => readLabels_gap hword rfl
  have hname : readLabels true [] (b.toList ++ '\n' :: rest) = readLabels false [] rest := by
    rw [readLabels_append true hname]
    rfl
  rw [has, hname] at hread
  rw [List.flatMap_singleton, String.toList_append, String.toList_append]
  simpa only [List.append_assoc, List.singleton_append] using hread

/-- A line break between texts ends the line of each. -/
theorem intercalate (h : ReadsLines texts ls) (hne : texts ≠ []) :
    ReadsLines [String.intercalate "\n" texts] ls := by
  intro rest
  rw [List.flatMap_singleton, toList_intercalate_lineBreak hne]
  exact h rest

theorem perm_labels (h : ReadsLines [text] ls) : (labels text).Perm ls := by
  obtain ⟨ls', hperm, hread⟩ := h []
  rw [List.flatMap_singleton, List.append_nil, readLabels, List.append_nil] at hread
  rw [labels, hread]
  exact hperm

end ReadsLines

end Text

namespace Sql

/-! ## Statements inside each other -/

mutual

/-- The statements inside an expression, those inside others included. -/
def Scalar.nested : Scalar → List Select
  | .reference .. | .bound _ | .named _ | .null | .countStar => []
  | .unary _ operand | .nullTest _ operand | .aggregate _ _ operand => operand.nested
  | .binary _ left right | .compare _ left right | .like left right => left.nested ++ right.nested
  | .case condition positive negative => condition.nested ++ (positive.nested ++ negative.nested)
  | .inList needle values => needle.nested ++ Scalar.nestedAll values
  | .inSelect needle select => needle.nested ++ select.nested

def Scalar.nestedAll : List Scalar → List Select
  | [] => []
  | e :: es => e.nested ++ Scalar.nestedAll es

def Scalar.nestedOption : Option Scalar → List Select
  | none => []
  | some e => e.nested

def Output.nestedAll : List Output → List Select
  | [] => []
  | .mk value _ :: outputs => value.nested ++ Output.nestedAll outputs

def Source.nested : Source → List Select
  | .table .. => []
  | .derived select _ => select.nested

def Join.nestedAll : List Join → List Select
  | [] => []
  | .mk _ _ _ outer inner :: joins => outer.nested ++ (inner.nested ++ Join.nestedAll joins)

def OrderItem.nestedAll : List OrderItem → List Select
  | [] => []
  | .mk key _ :: items => key.nested ++ OrderItem.nestedAll items

/-- A statement and all those inside it, in reading order. -/
def Select.nested : Select → List Select
  | .mk outputs source joins filter keys having order =>
    .mk outputs source joins filter keys having order ::
      (Output.nestedAll outputs ++ (source.nested ++ (Join.nestedAll joins ++
        (Scalar.nestedOption filter ++ (Scalar.nestedAll keys ++
          (Scalar.nestedOption having ++ OrderItem.nestedAll order))))))

end

def Change.nested : Change → List Select
  | .delete _ filter => Scalar.nestedOption filter
  | .update _ assignments filter =>
    Scalar.nestedAll (assignments.map (·.2)) ++ Scalar.nestedOption filter
  | .insert _ values => Scalar.nestedAll (values.map (·.2))

theorem Scalar.nestedOption_eq (e : Option Scalar) : nestedOption e = nestedAll e.toList := by
  cases e with
  | none => rfl
  | some e => exact (List.append_nil _).symm

theorem Output.nestedAll_eq (outputs : List Output) :
    nestedAll outputs = Scalar.nestedAll (outputs.map (·.value)) := by
  induction outputs with
  | nil => rfl
  | cons output outputs ih =>
      obtain ⟨value, name⟩ := output
      exact congrArg (value.nested ++ ·) ih

theorem OrderItem.nestedAll_eq (items : List OrderItem) :
    nestedAll items = Scalar.nestedAll (items.map (·.key)) := by
  induction items with
  | nil => rfl
  | cons item items ih =>
      obtain ⟨key, direction⟩ := item
      exact congrArg (key.nested ++ ·) ih

def labelsOf (ss : List Select) : List String := ss.flatMap Select.labels

theorem labelsOf_append (ss ss' : List Select) :
    labelsOf (ss ++ ss') = labelsOf ss ++ labelsOf ss' :=
  List.flatMap_append

end Sql

open Text (isGap unbroken Word Reads ReadsLines)

/-! ## Names and aliases -/

namespace Text

/-- The characters that end words. -/
def gaps : List Char := ['\n', ' ']

theorem lineBreak_mem_gaps : '\n' ∈ gaps := List.mem_cons_self

theorem mem_gaps {m : Char} : m ∈ gaps ↔ isGap m = true := by
  simp [gaps, isGap, or_comm]

theorem foreign_of_mem_gaps {m : Char} (hm : m ∈ gaps) : Foreign m := by
  rcases List.mem_pair.1 hm with rfl | rfl
  · exact foreign_lineBreak
  · exact ⟨by decide, by decide, by decide⟩

theorem unbroken_iff {s : String} : unbroken s.toList = true ↔ ∀ m ∈ gaps, m ∉ s.toList := by
  simp only [unbroken, List.all_eq_true, mem_gaps, Bool.not_eq_true']
  constructor
  · intro h m hm hmem
    exact absurd hm (Bool.eq_false_iff.1 (h m hmem))
  · intro h c hc
    exact Bool.eq_false_iff.2 fun hgap => h c hgap hc

theorem Word.lacks {s : String} (h : Word s) : ∀ m ∈ gaps, m ∉ s.toList := unbroken_iff.1 h.unbroken

theorem oneLine_of_alias {l : String} (h : ∃ n, l = aliasName n) : OneLine l := by
  obtain ⟨n, rfl⟩ := h
  exact foreign_lineBreak.aliasName n

theorem exists_alias (n : Nat) : ∃ k, aliasName n = aliasName k := ⟨n, rfl⟩

end Text

/-- Names are words, and references start with an alias. -/
def Spelling.worded : Spelling where
  name := Word
  without := Text.gaps
  label l := ∃ n, l = aliasName n
  subqueries := True
  lacks := Word.lacks
  foreign _ := Text.foreign_of_mem_gaps
  lineBreak := Text.lineBreak_mem_gaps
  oneLine := Text.oneLine_of_alias
  aliases := Text.exists_alias

theorem Spelling.unbroken_of_field {s : String} (h : Spelling.worded.Field s) :
    unbroken s.toList = true :=
  Text.unbroken_iff.2 h

namespace Text

theorem toList_aliasName (n : Nat) : (aliasName n).toList = 'a' :: (toString n).toList := by
  rw [aliasName, String.toList_append]
  rfl

theorem isAlias_aliasName (n : Nat) : isAlias (aliasName n).toList = true := by
  rw [toList_aliasName]
  cases hn : (toString n).toList with
  | nil => exact absurd (String.toList_eq_nil_iff.1 hn) (toString_nat_ne_empty n)
  | cons c cs =>
      rw [isAlias, List.all_eq_true]
      exact fun c hc => isDigit_of_mem_toString (hn ▸ hc)

theorem unbroken_aliasName (n : Nat) : unbroken (aliasName n).toList = true := by
  rw [toList_aliasName, unbroken, List.all_cons, List.all_eq_true.2]
  · rfl
  · intro c hc
    have hdigit := isDigit_of_mem_toString hc
    rw [Bool.not_eq_true', isGap, Bool.or_eq_false_iff, decide_eq_false_iff_not,
      decide_eq_false_iff_not]
    constructor <;> (rintro rfl; exact absurd hdigit (by decide))

variable {a b name : String} {ls ls' : List String} {rest : List Char}

theorem readLabels_pad (level : Nat) :
    readLabels false [] ((Sql.pad level).toList ++ rest) = readLabels false [] rest := by
  rw [Sql.pad, String.toList_ofList]
  induction 4 * level with
  | zero => rfl
  | succ n ih => exact ih

/-- An alias is read where it stands alone. -/
theorem readLabels_aliasName (n : Nat) (rest : List Char) {c : Char} (hc : isGap c = true) :
    readLabels false [] ((aliasName n).toList ++ c :: rest) =
      aliasName n :: readLabels false [] rest := by
  have has : (aliasName n).toList ≠ "AS".toList := by
    rw [toList_aliasName]
    exact fun h => absurd (List.cons.inj h).1 (by decide)
  rw [readLabels_append false (unbroken_aliasName n), List.nil_append, readLabels, if_pos hc,
    isAlias_aliasName, decide_eq_false has, String.ofList_toList]
  rfl

/-- A table with its alias behind it. -/
theorem readLabels_table (hname : Word name) (n : Nat) (rest : List Char) {c : Char}
    (hc : isGap c = true) :
    readLabels false [] (name.toList ++ ' ' :: ((aliasName n).toList ++ c :: rest)) =
      aliasName n :: readLabels false [] rest := by
  have has : name.toList ≠ "AS".toList := fun h => hname.notAs (String.toList_inj.1 h)
  have hgap : isGap ' ' = true := rfl
  rw [readLabels_append false hname.unbroken, List.nil_append, readLabels, if_pos hgap,
    hname.notAlias, decide_eq_false has, Bool.and_false, if_neg Bool.false_ne_true, List.nil_append,
    readLabels_aliasName n rest hc]

namespace ReadsLines

theorem table (level : Nat) (hname : Word name) (n : Nat) :
    ReadsLines [Sql.pad level ++ name ++ " " ++ aliasName n] [aliasName n] := by
  intro rest
  refine ⟨[aliasName n], .refl _, ?_⟩
  have hread := readLabels_table hname n rest (c := '\n') rfl
  rw [← readLabels_pad level] at hread
  simpa [String.toList_append] using hread

theorem closed (level n : Nat) :
    ReadsLines [Sql.pad level ++ ") " ++ aliasName n] [aliasName n] := by
  intro rest
  refine ⟨[aliasName n], .refl _, ?_⟩
  have hclosed : ∀ cs, readLabels false [] (')' :: ' ' :: cs) = readLabels false [] cs := fun _ => rfl
  have hread := readLabels_aliasName n rest (c := '\n') rfl
  rw [← hclosed, ← readLabels_pad level] at hread
  simpa [String.toList_append] using hread

theorem join (ha : Reads a []) (hname : Word name) (n : Nat) (hb : Reads b ls) :
    ReadsLines [a ++ " " ++ name ++ " " ++ aliasName n ++ " " ++ b] (aliasName n :: ls) := by
  intro rest
  obtain ⟨word, ls', hword, hperm, hfront⟩ := ha [] (' ' :: (name.toList ++ ' ' ::
    ((aliasName n).toList ++ ' ' :: (b.toList ++ '\n' :: rest)))) rfl
  obtain rfl := List.perm_nil.1 hperm
  obtain ⟨word', ls', hword', hperm', hback⟩ := hb [] ('\n' :: rest) rfl
  rw [readLabels_gap hword rfl, readLabels_table hname n _ rfl, hback,
    readLabels_gap hword' rfl] at hfront
  refine ⟨aliasName n :: ls', hperm'.cons _, ?_⟩
  simpa [String.toList_append] using hfront

end ReadsLines

namespace Reads

theorem bracket (h : Reads a ls) (atomic : Bool) : Reads (Sql.bracket atomic a) ls := by
  cases atomic with
  | true => exact h
  | false => exact ((of_quiet "(" rfl).behind h).before (of_quiet ")" rfl)

theorem operator (ha : Reads a ls) (hb : Reads b ls') {word : String} (hword : Reads word []) :
    Reads (a ++ " " ++ word ++ " " ++ b) (ls ++ ls') :=
  (((ha.before (of_quiet " " rfl)).before hword).before (of_quiet " " rfl)).append hb

theorem concat (d : Dialect) (ha : Reads a ls) (hb : Reads b ls') :
    Reads (d.concat a b) (ls ++ ls') := by
  have hcall : Reads ("CONCAT(" ++ a ++ ", " ++ b ++ ")") (ls ++ ls') :=
    ((((of_quiet "CONCAT(" rfl).behind ha).before (of_quiet ", " rfl)).append hb).before
      (of_quiet ")" rfl)
  cases d with
  | sqlite => exact (ha.before (of_quiet " || " rfl)).append hb
  | generic | sqlserver => exact hcall

theorem subquery (ha : Reads a ls) (hb : ReadsLines [b] ls') (level : Nat) :
    Reads (a ++ " IN (\n" ++ b ++ "\n" ++ Sql.pad level ++ ")") (ls ++ ls') := by
  intro word rest hword
  obtain ⟨word₁, ls₁, hword₁, hperm₁, hneedle⟩ :=
    ha word (" IN (\n".toList ++ (b.toList ++ '\n' :: ((Sql.pad level ++ ")").toList ++ rest))) hword
  have hopen : ∀ cs, readLabels false word₁ (" IN (\n".toList ++ cs) = readLabels false [] cs :=
    fun _ => readLabels_gap hword₁ rfl
  obtain ⟨ls₂, hperm₂, hselect⟩ := hb ((Sql.pad level ++ ")").toList ++ rest)
  obtain ⟨word₃, ls₃, hword₃, hperm₃, hclosed⟩ :=
    ((pad level).before (of_quiet ")" rfl)) [] rest rfl
  obtain rfl := List.perm_nil.1 hperm₃
  rw [List.flatMap_singleton, List.append_assoc, List.singleton_append] at hselect
  rw [hopen, hselect, hclosed] at hneedle
  refine ⟨word₃, ls₁ ++ ls₂, hword₃, hperm₁.append hperm₂, ?_⟩
  simpa [String.toList_append] using hneedle

end Reads

end Text

/-! ## Statements -/

namespace Sql

variable {d : Dialect}

theorem reads_reference {qualifier field : String} (hq : ∃ n, qualifier = aliasName n)
    (hf : Spelling.worded.Field field) : Reads (qualifier ++ "." ++ field) [] := by
  obtain ⟨n, rfl⟩ := hq
  refine .of_front ?_ ?_ ?_
  · simp [Text.settled, Text.isApart, String.toList_append]
  · simp [String.toList_append]
  · have hlabel := Text.unbroken_aliasName n
    have hfield := Spelling.unbroken_of_field hf
    rw [String.toList_append, String.toList_append, Text.unbroken_append, Text.unbroken_append,
      hlabel, hfield]
    rfl

theorem reads_marked {name : String} (hname : unbroken name.toList = true) :
    Reads (d.parameterMark ++ name) [] := by
  refine .of_front (by cases d <;> decide) (by cases d <;> decide) ?_
  rw [String.toList_append, Text.unbroken_append, hname]
  cases d <;> rfl

theorem reads_placeholder (index : Nat) : Reads (placeholder d index) [] := by
  have hdigits : unbroken ("p" ++ toString index).toList = true := by
    have halias := Text.unbroken_aliasName index
    rw [Text.toList_aliasName] at halias
    rw [String.toList_append]
    exact halias
  rw [placeholder, String.append_assoc]
  exact reads_marked hdigits

theorem readsLines_clause (level : Nat) (word : String) (hword : Text.quiet [] word.toList = true)
    {items ls : List String} (h : Reads (String.intercalate ", " items) ls)
    (hnil : items = [] → ls = []) : ReadsLines (clauseLines level word items) ls := by
  cases items with
  | nil =>
      rw [hnil rfl]
      exact .nil
  | cons item items =>
      have hline := ReadsLines.of_reads ((Reads.pad level).before (.of_quiet _ hword))
      exact hline.append (.of_reads ((Reads.pad (level + 1)).behind h))

mutual

/-- The aliases of an expression are read off its text. -/
theorem Scalar.reads (level : Nat) : ∀ {e : Scalar}, e.Spelled .worded →
    Reads (e.render d level) (labelsOf e.nested)
  | _, .reference hq hf => reads_reference hq hf
  | _, .bound => reads_placeholder _
  | _, .named hn => reads_marked (Spelling.unbroken_of_field hn)
  | _, .null => .of_quiet "NULL" rfl
  | _, .countStar => .of_quiet "COUNT(*)" rfl
  | _, @Scalar.Spelled.binary _ op left right hl hr => by
      have hl := (Scalar.reads level hl).bracket left.isAtomic
      have hr := (Scalar.reads level hr).bracket right.isAtomic
      rw [Scalar.nested, labelsOf_append]
      by_cases hop : op = .concat
      · rw [hop, Scalar.render]
        exact hl.concat d hr
      · rw [Scalar.render_binary hop]
        exact hl.operator hr (.of_quiet _ (by cases op <;> decide))
  | _, @Scalar.Spelled.unary _ op operand ho => by
      rw [Scalar.render, Scalar.nested]
      exact (Reads.of_quiet _ (by cases op <;> decide)).behind ((Scalar.reads level ho).bracket _)
  | _, @Scalar.Spelled.compare _ op left right hl hr => by
      rw [Scalar.render, Scalar.nested, labelsOf_append]
      exact ((Scalar.reads level hl).bracket _).operator ((Scalar.reads level hr).bracket _)
        (.of_quiet _ (by cases op <;> decide))
  | _, @Scalar.Spelled.nullTest _ negated operand ho => by
      rw [Scalar.render, Scalar.nested]
      exact ((Scalar.reads level ho).bracket _).before (.of_quiet _ (by cases negated <;> decide))
  | _, @Scalar.Spelled.aggregate _ func distinct operand ho => by
      have hword : Reads (func.symbol ++ "(" ++ (if distinct then "DISTINCT " else "")) [] :=
        .of_quiet _ (by cases func <;> cases distinct <;> decide)
      rw [Scalar.render, Scalar.nested]
      exact (hword.behind (Scalar.reads level ho)).before (.of_quiet ")" rfl)
  | _, .case hc hp hn => by
      have hwhen := (Reads.of_quiet "CASE WHEN " rfl).behind (Scalar.reads level hc)
      have hthen := (hwhen.before (.of_quiet " THEN " rfl)).append (Scalar.reads level hp)
      have helse := (hthen.before (.of_quiet " ELSE " rfl)).append (Scalar.reads level hn)
      rw [Scalar.render, Scalar.nested, labelsOf_append, labelsOf_append, ← List.append_assoc]
      exact helse.before (.of_quiet " END" rfl)
  | _, .like hv hp => by
      rw [Scalar.render, Scalar.nested, labelsOf_append]
      exact (((Scalar.reads level hv).bracket _).before (.of_quiet " LIKE " rfl)).append
        ((Scalar.reads level hp).bracket _)
  | _, @Scalar.Spelled.inList _ needle values hn hv => by
      rw [Scalar.render, Scalar.nested, labelsOf_append]
      exact ((((Scalar.reads level hn).bracket _).before (.of_quiet " IN (" rfl)).append
        (Scalar.reads_all level hv)).before (.of_quiet ")" rfl)
  | _, .inSelect _ hn hs => by
      rw [Scalar.render, Scalar.nested, labelsOf_append]
      exact ((Scalar.reads level hn).bracket _).subquery (Select.readsLines (level + 2) hs) _

theorem Scalar.reads_all (level : Nat) : ∀ {es : List Scalar}, (∀ e ∈ es, e.Spelled .worded) →
    Reads (String.intercalate ", " (Scalar.renderAll d level es)) (labelsOf (Scalar.nestedAll es))
  | [], _ => .of_quiet "" rfl
  | [e], h => by
      rw [Scalar.renderAll, Scalar.renderAll, String.intercalate_singleton, Scalar.nestedAll,
        Scalar.nestedAll, List.append_nil]
      exact Scalar.reads level (h e List.mem_cons_self)
  | e :: next :: es, h => by
      rw [List.forall_mem_cons] at h
      rw [Scalar.renderAll, Scalar.renderAll, String.intercalate_cons_cons, Scalar.nestedAll,
        labelsOf_append]
      exact ((Scalar.reads level h.1).before (.of_quiet ", " rfl)).append (Scalar.reads_all level h.2)

theorem Scalar.reads_option (level : Nat) : ∀ {e : Option Scalar}, (∀ x ∈ e, x.Spelled .worded) →
    Reads (String.intercalate ", " (Scalar.renderOption d level e)) (labelsOf (Scalar.nestedOption e))
  | none, _ => .of_quiet "" rfl
  | some e, h => by
      rw [Scalar.renderOption, String.intercalate_singleton]
      exact Scalar.reads level (h e rfl)

theorem OrderItem.reads_all (level : Nat) : ∀ {items : List OrderItem},
    (∀ item ∈ items, item.Spelled .worded) →
      Reads (String.intercalate ", " (OrderItem.renderAll d level items))
        (labelsOf (OrderItem.nestedAll items))
  | [], _ => .of_quiet "" rfl
  | [.mk key direction], h => by
      obtain ⟨hk⟩ := h _ List.mem_cons_self
      rw [OrderItem.renderAll, OrderItem.renderAll, String.intercalate_singleton,
        OrderItem.nestedAll, OrderItem.nestedAll, List.append_nil]
      exact ((Scalar.reads level hk).before (.of_quiet " " rfl)).before
        (.of_quiet _ (by cases direction <;> decide))
  | .mk key direction :: next :: items, h => by
      rw [List.forall_mem_cons] at h
      obtain ⟨⟨hk⟩, hi⟩ := h
      have hkey := ((Scalar.reads level hk).before (.of_quiet " " rfl)).before
        (.of_quiet direction.symbol (by cases direction <;> decide))
      rw [OrderItem.nestedAll, labelsOf_append]
      cases next
      rw [OrderItem.renderAll, OrderItem.renderAll, String.intercalate_cons_cons]
      exact (hkey.before (.of_quiet ", " rfl)).append (OrderItem.reads_all level hi)

theorem Output.readsLines (level : Nat) : ∀ {outputs : List Output},
    (∀ o ∈ outputs, o.Spelled .worded) →
      ReadsLines (commaLines (level + 1) (Output.renderAll d level outputs))
        (labelsOf (Output.nestedAll outputs))
  | [], _ => .nil
  | [.mk value name], h => by
      obtain ⟨hv, hn⟩ := h _ List.mem_cons_self
      have hvalue := (Reads.pad (level + 1)).behind (Scalar.reads level hv)
      rw [Output.renderAll, Output.renderAll, commaLines, Output.nestedAll, Output.nestedAll,
        List.append_nil, ← String.append_assoc, ← String.append_assoc]
      exact .of_output hvalue (Spelling.unbroken_of_field hn)
  | .mk value name :: next :: outputs, h => by
      rw [List.forall_mem_cons] at h
      obtain ⟨⟨hv, hn⟩, ho⟩ := h
      have hvalue := (Reads.pad (level + 1)).behind (Scalar.reads level hv)
      have hname : unbroken (name ++ ",").toList = true := by
        rw [String.toList_append, Text.unbroken_append, Spelling.unbroken_of_field hn]
        rfl
      have hline := ReadsLines.of_output hvalue hname
      rw [Output.nestedAll, labelsOf_append]
      cases next
      have htext : pad (level + 1) ++ value.render d level ++ " AS " ++ (name ++ ",") =
          pad (level + 1) ++ (value.render d level ++ " AS " ++ name) ++ "," := by
        simp only [String.append_assoc]
      exact (htext ▸ hline).append (Output.readsLines level ho)

theorem Source.readsLines (level : Nat) : ∀ {source : Source}, source.Spelled .worded →
    ReadsLines (source.render d level) (source.label :: labelsOf source.nested)
  | _, .table hn hl => by
      obtain ⟨n, rfl⟩ := hl
      have hfrom := ReadsLines.of_reads ((Reads.pad level).before (.of_quiet "FROM" rfl))
      exact hfrom.append (.table (level + 1) hn n)
  | _, .derived hs hl => by
      obtain ⟨n, rfl⟩ := hl
      have hfrom := ReadsLines.of_reads ((Reads.pad level).before (.of_quiet "FROM (" rfl))
      refine (hfrom.append ((Select.readsLines (level + 1) hs).append (.closed level n))).perm ?_
      exact List.perm_append_singleton ..

theorem Join.readsLines (level : Nat) : ∀ {joins : List Join},
    (∀ join ∈ joins, join.Spelled .worded) →
      ReadsLines (Join.renderAll d level joins)
        (joins.map Join.label ++ labelsOf (Join.nestedAll joins))
  | [], _ => .nil
  | .mk kind table _ outer inner :: joins, h => by
      rw [List.forall_mem_cons] at h
      obtain ⟨⟨ht, ⟨n, rfl⟩, ho, hi⟩, hj⟩ := h
      have hfront : Reads (pad (level + 1) ++ kind.symbol) [] :=
        (Reads.pad _).before (.of_quiet _ (by cases kind <;> decide))
      have hkeys := ((Reads.of_quiet "ON " rfl).behind
        ((Scalar.reads level ho).bracket outer.isAtomic)).append
          ((Reads.of_quiet " = " rfl).behind ((Scalar.reads level hi).bracket inner.isAtomic))
      have hline := ReadsLines.join hfront ht n hkeys
      have hon : " ON " = " " ++ "ON " := rfl
      have htext : pad (level + 1) ++ kind.symbol ++ " " ++ table ++ " " ++ aliasName n ++ " " ++
          ("ON " ++ bracket outer.isAtomic (outer.render d level) ++
            (" = " ++ bracket inner.isAtomic (inner.render d level))) =
          pad (level + 1) ++ kind.symbol ++ " " ++ table ++ " " ++ aliasName n ++ " ON " ++
            bracket outer.isAtomic (outer.render d level) ++ " = " ++
              bracket inner.isAtomic (inner.render d level) := by
        simp only [hon, String.append_assoc]
      refine ((htext ▸ hline).append (Join.readsLines level hj)).perm ?_
      refine List.perm_iff_count.2 fun label => ?_
      simp only [Join.nestedAll, labelsOf_append, List.map_cons, Join.label, List.cons_append,
        List.count_cons, List.count_append]
      omega

/-- The aliases of a statement are read off its text. -/
theorem Select.readsLines (level : Nat) : ∀ {select : Select}, select.Spelled .worded →
    ReadsLines [select.render d level] (labelsOf select.nested)
  | .mk outputs source joins filter keys having order, .mk ho hs hj hf hk hh hi => by
      have hselect := ReadsLines.of_reads ((Reads.pad level).before (.of_quiet "SELECT" rfl))
      have hfilter := readsLines_clause level "WHERE" rfl
        (Scalar.reads_option level hf) fun h => by cases filter <;> first | rfl | cases h
      have hkeys := readsLines_clause level "GROUP BY" rfl
        (Scalar.reads_all level hk) fun h => by cases keys <;> first | rfl | cases h
      have hhaving := readsLines_clause level "HAVING" rfl
        (Scalar.reads_option level hh) fun h => by cases having <;> first | rfl | cases h
      have horder := readsLines_clause level "ORDER BY" rfl
        (OrderItem.reads_all level hi) fun h => by
          cases order with
          | nil => rfl
          | cons item => cases item; cases h
      have hlines := (((((((hselect.append (Output.readsLines level ho)).append
        (Source.readsLines level hs)).append (Join.readsLines level hj)).append hfilter).append
          hkeys).append hhaving).append horder)
      rw [Select.render]
      refine (hlines.intercalate (by simp)).perm (List.perm_iff_count.2 fun label => ?_)
      simp only [Select.nested, labelsOf, Select.labels, List.flatMap_cons, List.flatMap_append,
        List.cons_append, List.nil_append, List.count_cons, List.count_append]
      omega

end

end Sql

/-- If its names are words, the aliases of what a query is compiled to are read off the text. -/
theorem Query.CompilesTo.perm_labels {d : Dialect} {scope : Scope} {session : Session} {q : Query}
    {compiled : Compiled} {last : Context} (h : q.CompilesTo d scope session compiled last)
    (hnames : ∀ name ∈ q.names ++ scope.names, Word name) (level : Nat) :
    (Text.labels (compiled.select.render d level)).Perm (Sql.labelsOf compiled.select.nested) :=
  (Sql.Select.readsLines level (h.spelled (σ := .worded) (compileWithin_spells trivial _)
    hnames)).perm_labels

example : Text.labels "SELECT\n    a0.Id AS a7\nFROM\n    customers a0" = ["a0"] := by decide +kernel

end QueryCompiler
