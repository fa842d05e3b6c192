import QueryCompiler.Json.Basic
import QueryCompiler.Number.Reading

/-! # `QueryCompiler.Json.Document` — JSON as it is written

A document keeps what reading may still object to: a number that no double holds, a string with
half of a surrogate pair.  Where a reader has no use for a part of a document such things do no
harm, so they are judged only when a value is taken.
-/

namespace QueryCompiler

/-- A number as it is written. -/
structure Numeral where
  negative : Bool
  whole : List Char
  /-- The digits behind a point, of which there is at least one. -/
  fraction : Option (List Char)
  /-- The sign and the digits of a power of ten. -/
  power : Option (Bool × List Char)

/-- A JSON document.  A string is missing where it holds half of a surrogate pair. -/
inductive Document where
  | null
  | bool (b : Bool)
  | number (n : Numeral)
  | string (s : Option String)
  | array (items : List Document)
  | object (members : List (Option String × Document))

/-! ## Numbers

Digits are taken into a word of 64 bits as long as they fit; what follows only counts towards the
power of ten.  The word is then rounded to a double and multiplied or divided by the double of a
power of ten. -/

namespace Numeral

def wordMax : Nat := Nat.pow 2 64 - 1

/-- Appends digits to a word until the next one would not fit; gives the word and the digits that
are left. -/
def takeDigits : Nat → List Char → Nat × List Char
  | word, [] => (word, [])
  | word, c :: cs =>
    let next := 10 * word + (c.toNat - '0'.toNat)
    if next > wordMax then (word, c :: cs) else takeDigits next cs

def wordToDouble (word : Nat) : Binary64 := Binary64.ofRatio false word 1

def powerOfTen (n : Nat) : Binary64 := Binary64.ofDecimal .double false 1 n

/-- The magnitude of a word times a power of ten; nothing if it is infinite. -/
def scaleWord? (word : Nat) (exp : Int) : Option Binary64 :=
  let x := wordToDouble word
  if exp > 308 then
    if word = 0 then some x else none
  else if exp ≥ 0 then
    let y := x.mulMagnitude (powerOfTen exp.toNat)
    if y.isFinite then some y else none
  else if exp ≥ -308 then
    some (x.divMagnitude (powerOfTen (-exp).toNat))
  else if exp ≥ -616 then
    some ((x.divMagnitude (powerOfTen 308)).divMagnitude (powerOfTen (-exp - 308).toNat))
  else
    some (.zero false)

/-- The power of ten behind the digits as a number; nothing if it is too large to count. -/
def powerValue? : Option (Bool × List Char) → Option Int
  | none => some 0
  | some (negative, digits) =>
    let n := digitsValue digits
    if n < Nat.pow 2 31 then some (if negative then -(n : Int) else n) else none

/-- The magnitude of a number that has a point, a power of ten, or too many digits. -/
def magnitude? (word : Nat) (dropped : Nat) (n : Numeral) : Option Binary64 :=
  let fraction := n.fraction.getD []
  let (word, rest) := takeDigits word fraction
  let exp : Int := (dropped : Int) - ((fraction.length - rest.length : Nat) : Int)
  match powerValue? n.power, n.power with
  | some p, _ => scaleWord? word (exp + p)
  | none, some (false, _) => if word = 0 then some (.zero false) else none
  | none, _ => some (.zero false)

/-- The value of a number: whole numbers that fit a word are kept exactly, negative zero and all
others are doubles. -/
def toJson? (n : Numeral) : Option Json :=
  let (word, rest) := takeDigits 0 n.whole
  if rest.isEmpty && n.fraction.isNone && n.power.isNone then
    if !n.negative then some (.int word)
    else if word = 0 ∨ word > Nat.pow 2 63 then
      some (.float (Binary64.withSign true (wordToDouble word)))
    else some (.int (-(word : Int)))
  else
    (n.magnitude? word rest.length).map fun x => .float (Binary64.withSign n.negative x)

end Numeral

end QueryCompiler
