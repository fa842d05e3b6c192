/-! # `QueryCompiler.Number.Binary64` — double precision numbers

A double is its 64 bits.  Whatever is computed about one is computed exactly, on natural numbers:
a quotient is rounded to the nearest representable value, and of two equally near ones to the one
whose last bit is zero.
-/

namespace QueryCompiler

/-- A binary floating point number of 64 bits: sign, eleven bits of exponent, 52 of fraction. -/
structure Binary64 where
  bits : UInt64
deriving DecidableEq, Inhabited

namespace Binary64

/-- The sign bit is set. -/
def isNegative (x : Binary64) : Bool := x.bits.toNat / Nat.pow 2 63 = 1

/-- The bits below the sign. -/
def magnitude (x : Binary64) : Nat := x.bits.toNat % Nat.pow 2 63

def exponentBits (x : Binary64) : Nat := x.magnitude / Nat.pow 2 52

def fractionBits (x : Binary64) : Nat := x.magnitude % Nat.pow 2 52

/-- Neither an infinity nor a NaN. -/
def isFinite (x : Binary64) : Bool := x.exponentBits < 2047

/-- No number at all. -/
def isNaN (x : Binary64) : Bool := x.exponentBits = 2047 && x.fractionBits ≠ 0

/-- For a finite number, the `m` of its magnitude `m * 2 ^ q`. -/
def mantissa (x : Binary64) : Nat :=
  if x.exponentBits = 0 then x.fractionBits else Nat.pow 2 52 + x.fractionBits

/-- For a finite number, the `q` of its magnitude `m * 2 ^ q`. -/
def exponent (x : Binary64) : Int :=
  if x.exponentBits = 0 then -1074 else (x.exponentBits : Int) - 1075

/-- The next number towards zero is half as far away as the next one outwards. -/
def isNarrowBelow (x : Binary64) : Bool := x.fractionBits = 0 && x.exponentBits > 1

/-- The number with the given sign and the given bits below it. -/
def ofMagnitude (negative : Bool) (magnitude : Nat) : Binary64 :=
  ⟨UInt64.ofNat ((if negative then Nat.pow 2 63 else 0) + magnitude)⟩

def zero (negative : Bool) : Binary64 := ofMagnitude negative 0

def infinity (negative : Bool) : Binary64 := ofMagnitude negative (2047 * Nat.pow 2 52)

def nan : Binary64 := ofMagnitude false (2047 * Nat.pow 2 52 + Nat.pow 2 51)

end Binary64

/-! ## Rounding -/

/-- A quotient rounded to the nearest natural number, a half to the even one. -/
def roundHalfEven (num den : Nat) : Nat :=
  let q := num / den
  match compare (2 * (num % den)) den with
  | .lt => q
  | .gt => q + 1
  | .eq => q + q % 2

/-- A binary format: how many bits a mantissa has, the least exponent of its last bit, and the
power of two from which on a magnitude is infinite. -/
structure BinaryFormat where
  precision : Nat
  least : Int
  limit : Int

def BinaryFormat.double : BinaryFormat := ⟨53, -1074, 1024⟩

def BinaryFormat.single : BinaryFormat := ⟨24, -149, 128⟩

/-- The numerator and denominator of `num / den * 2 ^ e`. -/
def scaleBy (num den : Nat) (e : Int) : Nat × Nat :=
  (num * Nat.pow 2 e.toNat, den * Nat.pow 2 (-e).toNat)

/-- The exponent at which a positive quotient has exactly `precision` bits, held at `least`. -/
def BinaryFormat.exponentOf (f : BinaryFormat) (num den : Nat) : Int :=
  let e : Int := (num.log2 : Int) - (den.log2 : Int) - f.precision
  let (n, d) := scaleBy num den (-e)
  let e := if n / d < Nat.pow 2 f.precision then e else e + 1
  max e f.least

/-- The nearest number of the format to a quotient, as mantissa and exponent; nothing if it is
infinite. -/
def BinaryFormat.round? (f : BinaryFormat) (num den : Nat) : Option (Nat × Int) :=
  if num = 0 then
    some (0, f.least)
  else
    let e := f.exponentOf num den
    let (n, d) := scaleBy num den (-e)
    let m := roundHalfEven n d
    if m = 0 ∨ (m.log2 : Int) + e < f.limit then some (m, e) else none

namespace Binary64

/-- The double nearest to the quotient, signed. -/
def ofRatio (negative : Bool) (num den : Nat) : Binary64 :=
  match BinaryFormat.double.round? num den with
  | some (m, e) => ofMagnitude negative ((e + 1074).toNat * Nat.pow 2 52 + m)
  | none => infinity negative

/-- The quotient nearest to which a decimal `digits * 10 ^ exp` lies, read at the given format
and then widened.  Exponents far outside every format need no powers of ten. -/
def ofDecimal (f : BinaryFormat) (negative : Bool) (digits : Nat) (exp : Int) : Binary64 :=
  let scale := exp + (Nat.toDigits 10 digits).length
  if digits = 0 ∨ scale < -400 then
    zero negative
  else if scale > 400 then
    infinity negative
  else
    match f.round? (digits * Nat.pow 10 exp.toNat) (Nat.pow 10 (-exp).toNat) with
    | none => infinity negative
    | some (m, e) =>
      let (n, d) := scaleBy m 1 e
      ofRatio negative n d

/-- The numerator and denominator of a finite magnitude. -/
def ratio (x : Binary64) : Nat × Nat := scaleBy x.mantissa 1 x.exponent

/-- The product of two finite magnitudes, rounded once. -/
def mulMagnitude (x y : Binary64) : Binary64 :=
  ofRatio false (x.ratio.1 * y.ratio.1) (x.ratio.2 * y.ratio.2)

/-- The quotient of two finite magnitudes, the second positive, rounded once. -/
def divMagnitude (x y : Binary64) : Binary64 :=
  ofRatio false (x.ratio.1 * y.ratio.2) (x.ratio.2 * y.ratio.1)

/-- The same magnitude with the given sign. -/
def withSign (negative : Bool) (x : Binary64) : Binary64 := ofMagnitude negative x.magnitude

end Binary64

end QueryCompiler
