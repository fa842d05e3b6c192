import QueryCompiler.Text.CasePairs
import QueryCompiler.Text.Classes

/-! # `QueryCompiler.Text.Case` — small and capital letters

Names are told apart without regard to case, so `lower` is the key under which a name is taken.
One letter of a text decides by its place: a capital sigma that ends a word becomes the final small
sigma.  It ends a word if, marks aside, a letter with case stands before it and none behind it.
-/

namespace QueryCompiler.Text

/-- The other case of one letter: ASCII by `plain`, any other letter by the tables. -/
def recase (plain : Char → Char) (expansions : List (Nat × List Nat)) (runs : List CaseRun)
    (c : Char) : List Char :=
  if c.toNat < 0x80 then
    [plain c]
  else
    match expansions.lookup c.toNat with
    | some cs => cs.map Char.ofNat
    | none => [((runs.findSome? (·.image? c.toNat)).map Char.ofNat).getD c]

/-- The small form of a letter, whatever stands around it. -/
def lowerChar (c : Char) : List Char := recase Char.toLower lowerExpansions lowerRuns c

def upperChar (c : Char) : List Char := recase Char.toUpper upperExpansions upperRuns c

/-- Past the marks that case looks through stands a letter that has case. -/
def touchesWord (cs : List Char) : Bool :=
  match cs.dropWhile isCaseIgnorable with
  | [] => false
  | c :: _ => isCased c

/-- A letter with `before` on its left, nearest first, and `after` on its right ends a word. -/
def endsWord (before after : List Char) : Bool := touchesWord before && !touchesWord after

/-- Small letters for a text whose characters to the left, nearest first, are `before`. -/
def lowerAfter : List Char → List Char → List Char
  | _, [] => []
  | before, c :: after =>
    let small := if c = 'Σ' then [if endsWord before after then 'ς' else 'σ'] else lowerChar c
    small ++ lowerAfter (c :: before) after

/-- The text in small letters. -/
def lower (s : String) : String := String.ofList (lowerAfter [] s.toList)

/-- The text with its first letter in capital form. -/
def capitalize (s : String) : String :=
  match s.toList with
  | [] => ""
  | c :: rest => String.ofList (upperChar c ++ rest)

end QueryCompiler.Text
