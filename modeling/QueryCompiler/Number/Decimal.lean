import QueryCompiler.Number.Binary64

/-! # `QueryCompiler.Number.Decimal` — the shortest decimal that reads back

The reals that round to a double form an interval, its ends included exactly when the mantissa is
even.  Of the decimals in that interval the one with the fewest digits is chosen, and among those
the nearest; which of two equally near ones is left to the caller.

The search goes through the grids of one, two, … digits.  On each grid only the two neighbours of
the value need a look: if any point of the grid lies in the interval, one of them does.
-/

namespace QueryCompiler

/-- The number `digits * 10 ^ exp`. -/
structure Decimal where
  digits : Nat
  exp : Int
deriving DecidableEq, Repr

/-- What becomes of a tie between two decimals. -/
inductive Tie where
  | toEven
  | upward
deriving DecidableEq

namespace Decimal

/-- Compares `a * 10 ^ i` with `n * 2 ^ j`, exactly. -/
def compareScaled (a : Nat) (i : Int) (n : Nat) (j : Int) : Ordering :=
  compare (a * Nat.pow 10 i.toNat * Nat.pow 2 (-j).toNat)
    (n * Nat.pow 2 j.toNat * Nat.pow 10 (-i).toNat)

/-- The decimal lies among the reals that round to the magnitude of `x`. -/
def readsBackTo (d : Decimal) (x : Binary64) : Bool :=
  let low := if x.isNarrowBelow then 4 * x.mantissa - 1 else 4 * x.mantissa - 2
  let ends := x.mantissa % 2 = 0
  let atLow := compareScaled d.digits d.exp low (x.exponent - 2)
  let atHigh := compareScaled d.digits d.exp (4 * x.mantissa + 2) (x.exponent - 2)
  (atLow = .gt || (ends && atLow = .eq)) && (atHigh = .lt || (ends && atHigh = .eq))

/-- The least `k` for which the positive magnitude of `x` is below `10 ^ k`. -/
def scaleOf (x : Binary64) : Int :=
  let guess := Int.fdiv (((x.mantissa.log2 : Int) + x.exponent) * 1233) 4096
  ([guess, guess + 1].find? fun k => compareScaled 1 k x.mantissa x.exponent = .gt).getD (guess + 2)

/-- The magnitude of `x` on the grid of the multiples of `10 ^ exp`, rounded down. -/
def floorAt (x : Binary64) (exp : Int) : Nat :=
  x.mantissa * Nat.pow 2 x.exponent.toNat * Nat.pow 10 (-exp).toNat /
    (Nat.pow 2 (-x.exponent).toNat * Nat.pow 10 exp.toNat)

/-- The better of the two neighbours of `x` on a grid, if one of them reads back. -/
def neighbour? (tie : Tie) (x : Binary64) (exp : Int) : Option Decimal :=
  let below : Decimal := ⟨floorAt x exp, exp⟩
  let above : Decimal := ⟨floorAt x exp + 1, exp⟩
  match below.readsBackTo x, above.readsBackTo x with
  | false, false => none
  | true, false => some below
  | false, true => some above
  | true, true =>
    match compareScaled (below.digits + above.digits) exp (2 * x.mantissa) x.exponent, tie with
    | .gt, _ => some below
    | .lt, _ => some above
    | .eq, .upward => some above
    | .eq, .toEven => some (if below.digits % 2 = 0 then below else above)

/-- Moves the zeros at the end of the digits into the exponent. -/
def stripZeros : Nat → Decimal → Decimal
  | 0, d => d
  | n + 1, d =>
    if d.digits ≠ 0 ∧ d.digits % 10 = 0 then stripZeros n ⟨d.digits / 10, d.exp + 1⟩ else d

/-- The exact value of the magnitude of `x`. -/
def exact (x : Binary64) : Decimal :=
  ⟨x.mantissa * Nat.pow 2 x.exponent.toNat * Nat.pow 5 (-x.exponent).toNat, min x.exponent 0⟩

/-- The shortest decimal that reads back to the magnitude of a finite number.  Seventeen digits
always suffice. -/
def shortest (tie : Tie) (x : Binary64) : Decimal :=
  if x.mantissa = 0 then
    ⟨0, 0⟩
  else
    let scale := scaleOf x
    let found := (List.range 17).findSome? fun (n : Nat) => neighbour? tie x (scale - (n + 1 : Nat))
    stripZeros 20 (found.getD (exact x))

end Decimal

end QueryCompiler
