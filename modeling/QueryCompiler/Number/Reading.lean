import QueryCompiler.Number.Binary64

/-! # `QueryCompiler.Number.Reading` — reading a decimal

An optional sign, digits with an optional point among them, at least one digit in all, an optional
power of ten; or the words for an infinity and for no number, in either case of letters.
-/

namespace QueryCompiler

/-- The leading digits of a text and what follows them. -/
def spanDigits (cs : List Char) : List Char × List Char := cs.span Char.isDigit

/-- The number that decimal digits stand for. -/
def digitsValue (cs : List Char) : Nat := cs.foldl (fun n c => 10 * n + (c.toNat - '0'.toNat)) 0

/-- Takes an optional sign off the front. -/
def takeSign : List Char → Bool × List Char
  | '-' :: cs => (true, cs)
  | '+' :: cs => (false, cs)
  | cs => (false, cs)

/-- The power of ten behind the digits, which takes up the rest of the text. -/
def readExponent? : List Char → Option Int
  | [] => some 0
  | c :: cs =>
    if c = 'e' ∨ c = 'E' then
      let (negative, rest) := takeSign cs
      let (digits, rest) := spanDigits rest
      if digits.isEmpty || !rest.isEmpty then none
      else some (if negative then -(digitsValue digits : Int) else digitsValue digits)
    else
      none

/-- Takes the digits behind a point off the front. -/
def takeFraction : List Char → List Char × List Char
  | '.' :: cs => spanDigits cs
  | cs => ([], cs)

namespace Binary64

/-- The double that a decimal text stands for, read at the given format and then widened. -/
def parse? (f : BinaryFormat) (s : String) : Option Binary64 :=
  let (negative, cs) := takeSign s.toList
  let word := String.ofList (cs.map Char.toLower)
  if word = "nan" then
    some (withSign negative nan)
  else if word = "inf" ∨ word = "infinity" then
    some (infinity negative)
  else
    let (whole, rest) := spanDigits cs
    let (fraction, rest) := takeFraction rest
    if whole.isEmpty && fraction.isEmpty then
      none
    else
      (readExponent? rest).map fun e =>
        ofDecimal f negative (digitsValue (whole ++ fraction)) (e - fraction.length)

end Binary64

end QueryCompiler
