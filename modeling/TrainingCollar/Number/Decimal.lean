import TrainingCollar.Number.Binary64

/-! # Decimal forms of doubles

`Decimal.shortest` finds the fewest decimal digits that still round to a given double, by testing
the two neighbours of the value on ever finer decimal grids. `Decimal.significant` rounds the value
to a number of digits instead. `Binary64.ofDecimal` is the way back: the double nearest to a decimal.
-/

namespace TrainingCollar

/-- The number `digits · 10 ^ exponent`. -/
structure Decimal where
  digits : Nat
  exponent : Int
deriving DecidableEq

namespace Decimal

/-- The decimal digits of a natural number, most significant first. -/
def digitsOf (n : Nat) : List Char := Nat.toDigits 10 n

/-- Trailing zeros go into the exponent, at most `fuel` of them. -/
def stripZeros : Nat → Decimal → Decimal
  | 0, d => d
  | fuel + 1, d =>
    if d.digits ≠ 0 ∧ d.digits % 10 = 0 then stripZeros fuel ⟨d.digits / 10, d.exponent + 1⟩ else d

/-- Compares `a · 10 ^ i` with `n / d`, exactly. -/
def compareScaled (a : Nat) (i : Int) (n d : Nat) : Ordering :=
  compare (a * Nat.pow 10 i.toNat * d) (n * Nat.pow 10 (-i).toNat)

/-- The greatest natural number whose multiple of `10 ^ i` does not exceed `n / d`. -/
def floorScaled (i : Int) (n d : Nat) : Nat :=
  n * Nat.pow 10 (-i).toNat / (d * Nat.pow 10 i.toNat)

/-- The least `k` with `n / d < 10 ^ k`, for a quotient whose binary logarithm is close to `log`. -/
def scale (log : Int) (n d : Nat) : Int :=
  let estimate := Int.fdiv (log * 30103) 100000
  let candidates := [estimate - 1, estimate, estimate + 1, estimate + 2]
  (candidates.find? fun k => compareScaled 1 k n d == .gt).getD (estimate + 3)

/-- The scale of a positive number of units. -/
def scaleOfUnits (units : Nat) : Int :=
  scale ((units.log2 : Int) - 1074) units Binary64.unitsPerOne

/-- Whether a decimal rounds to `mantissa · 2 ^ shift`: it lies between the midpoints to the two
neighbouring doubles, which belong to the interval exactly when the mantissa is even. -/
def readsBack (mantissa shift : Nat) (d : Decimal) : Bool :=
  let narrow := mantissa == Nat.pow 2 52 && shift != 0
  let low := (4 * mantissa - if narrow then 1 else 2) * Nat.pow 2 shift
  let high := (4 * mantissa + 2) * Nat.pow 2 shift
  let quarters := 4 * Binary64.unitsPerOne
  let inclusive := mantissa % 2 == 0
  let below := compareScaled d.digits d.exponent low quarters
  let above := compareScaled d.digits d.exponent high quarters
  (below == .gt || (inclusive && below == .eq)) && (above == .lt || (inclusive && above == .eq))

/-- Of two candidates the one that passes a test, and if both do, the preferred one. -/
def choose? (passes : Decimal → Bool) (down up : Decimal) (preferDown : Bool) : Option Decimal :=
  match passes down, passes up with
  | true, false => some down
  | false, true => some up
  | true, true => some (if preferDown then down else up)
  | false, false => none

/-- Whether the lower of two neighbours is preferred, given how the midpoint between them compares
with the value. -/
def prefersLow (low : Nat) : Ordering → Bool
  | .gt => true
  | .lt => false
  | .eq => low % 2 == 0

/-- The neighbour of the value on the grid `10 ^ exponent` that reads back, the closer one if both
do, and the even one if both are equally close. -/
def onGrid? (mantissa shift : Nat) (exponent : Int) : Option Decimal :=
  let units := mantissa * Nat.pow 2 shift
  let low := floorScaled exponent units Binary64.unitsPerOne
  let middle := compareScaled (2 * low + 1) exponent (2 * units) Binary64.unitsPerOne
  choose? (readsBack mantissa shift) ⟨low, exponent⟩ ⟨low + 1, exponent⟩ (prefersLow low middle)

/-- The exact value of a number of units. -/
def exact (units : Nat) : Decimal := ⟨units * Nat.pow 5 1074, -1074⟩

/-- The decimal with the fewest digits that reads back as `mantissa · 2 ^ shift` units. -/
def shortest (mantissa shift : Nat) : Decimal :=
  let units := mantissa * Nat.pow 2 shift
  if units = 0 then ⟨0, 0⟩
  else
    let top := scaleOfUnits units
    let grids := (List.range 17).map fun n => top - (n + 1 : Nat)
    stripZeros 1100 ((grids.findSome? (onGrid? mantissa shift)).getD (exact units))

/-- A number of units rounded to `count` significant digits, ties to even. -/
def significant (count : Nat) (units : Nat) : Decimal :=
  if units = 0 then ⟨0, 0⟩
  else
    let exponent := scaleOfUnits units - count
    let digits := roundQuotient (units * Nat.pow 10 (-exponent).toNat)
      (Binary64.unitsPerOne * Nat.pow 10 exponent.toNat)
    stripZeros (count + 1) ⟨digits, exponent⟩

end Decimal

/-- The double nearest to a decimal. Decimals far outside the range of finite doubles are settled by
their number of digits alone. -/
def Binary64.ofDecimal (negative : Bool) (d : Decimal) : Binary64 :=
  let size := (Decimal.digitsOf d.digits).length + d.exponent
  if d.digits = 0 ∨ size < -330 then .zero negative
  else if 310 < size then .infinite negative
  else .ofQuotient negative (Binary64.unitsPerOne * (d.digits * Nat.pow 10 d.exponent.toNat))
    (Nat.pow 10 (-d.exponent).toNat)

end TrainingCollar
