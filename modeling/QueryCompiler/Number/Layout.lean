import QueryCompiler.Number.Decimal

/-! # `QueryCompiler.Number.Layout` — writing a decimal

A layout says from which to which leading exponent a decimal is written with its point in place,
whether a whole number keeps a zero behind the point, and which of two equally near decimals is
taken.  Outside those exponents the form is one digit, the rest behind the point, and a signed power
of ten.
-/

namespace QueryCompiler

/-- How numbers are written. -/
structure NumberLayout where
  /-- The leading exponent is written in place from here on; none for no bound. -/
  plainFrom : Option Int
  /-- The leading exponent is written in place up to here, itself left out. -/
  plainBelow : Option Int
  /-- A whole number ends in `.0`. -/
  pointZero : Bool
  tie : Tie

namespace NumberLayout

/-- The zeros that fill a gap. -/
def zeros (n : Nat) : List Char := List.replicate n '0'

/-- The decimal with its point in place. -/
def plain (layout : NumberLayout) (d : Decimal) : List Char :=
  let digits := Nat.toDigits 10 d.digits
  if d.exp ≥ 0 then
    digits ++ zeros d.exp.toNat ++ (if layout.pointZero then ['.', '0'] else [])
  else
    let places := (-d.exp).toNat
    let padded := zeros (places + 1 - digits.length) ++ digits
    padded.take (padded.length - places) ++ '.' :: padded.drop (padded.length - places)

/-- The decimal as a power of ten with one digit before the point. -/
def scientific (lead : Int) (d : Decimal) : List Char :=
  let sign := if lead < 0 then '-' else '+'
  let exponent := 'e' :: sign :: Nat.toDigits 10 lead.natAbs
  match Nat.toDigits 10 d.digits with
  | [] => exponent
  | [c] => c :: exponent
  | c :: rest => c :: '.' :: rest ++ exponent

/-- The text of a decimal without its sign. -/
def unsigned (layout : NumberLayout) (d : Decimal) : List Char :=
  let lead := d.exp + (Nat.toDigits 10 d.digits).length - 1
  if d.digits = 0 ∨ (layout.plainFrom.all (· ≤ lead) ∧ layout.plainBelow.all (lead < ·)) then
    layout.plain d
  else
    scientific lead d

/-- The text of a finite number. -/
def write (layout : NumberLayout) (x : Binary64) : String :=
  let digits := layout.unsigned (Decimal.shortest layout.tie x)
  String.ofList (if x.isNegative then '-' :: digits else digits)

end NumberLayout

end QueryCompiler
