/-! # Double precision numbers

A finite double is a whole number of *units*, one unit being the least positive double `2⁻¹⁰⁷⁴`,
written as `mantissa · 2 ^ shift` in a unique way. Every operation computes the exact result as a
quotient of natural numbers and rounds it once with `ofQuotient`, to nearest and ties to even, so
comparisons and arithmetic are facts about integers.
-/

namespace TrainingCollar

/-- The quotient rounded to the nearest natural number, a tie going to the even neighbour. -/
def roundQuotient (num den : Nat) : Nat :=
  let quotient := num / den
  let remainder := num % den
  if 2 * remainder < den then quotient
  else if den < 2 * remainder then quotient + 1
  else quotient + quotient % 2

/-- The pairs that name the magnitude of a finite double, each magnitude once. -/
def Canonical (mantissa shift : Nat) : Prop :=
  mantissa < Nat.pow 2 53 ∧ shift ≤ 2045 ∧ (shift = 0 ∨ Nat.pow 2 52 ≤ mantissa)

instance (mantissa shift : Nat) : Decidable (Canonical mantissa shift) :=
  inferInstanceAs (Decidable (_ ∧ _ ∧ _))

/-- A double precision number. -/
inductive Binary64 where
  | nan
  | infinite (negative : Bool)
  | finite (negative : Bool) (mantissa shift : Nat) (canonical : Canonical mantissa shift)
deriving DecidableEq

/-- A place on the number line that doubles and integers share, counted in units, with its two
ends. -/
inductive Place where
  | below
  | at (units : Int)
  | above
deriving DecidableEq

/-- The order of the extended number line. -/
def Place.le : Place → Place → Bool
  | .below, _ => true
  | _, .above => true
  | .at a, .at b => decide (a ≤ b)
  | _, _ => false

namespace Binary64

/-- How many units make one. -/
def unitsPerOne : Nat := Nat.pow 2 1074

/-- The double with these parts; a magnitude beyond the last finite one is infinite. -/
def ofParts (negative : Bool) (mantissa shift : Nat) : Binary64 :=
  if canonical : Canonical mantissa shift then .finite negative mantissa shift canonical
  else .infinite negative

/-- The double nearest to `num / den` units, ties to even. -/
def ofQuotient (negative : Bool) (num den : Nat) : Binary64 :=
  let shift := (num / den).log2 + 1 - 53
  let mantissa := roundQuotient num (den * Nat.pow 2 shift)
  if mantissa = Nat.pow 2 53 then ofParts negative (Nat.pow 2 52) (shift + 1)
  else ofParts negative mantissa shift

/-- Zero with a sign. -/
def zero (negative : Bool) : Binary64 := .finite negative 0 0 (by decide)

/-- Carries a sign to an integer. -/
def withSign (negative : Bool) (magnitude : Nat) : Int :=
  if negative then -(magnitude : Int) else magnitude

/-- Where the number lies; a NaN lies nowhere. -/
def place : Binary64 → Option Place
  | .nan => none
  | .infinite negative => some (if negative then .below else .above)
  | .finite negative mantissa shift _ => some (.at (withSign negative (mantissa * Nat.pow 2 shift)))

/-- Neither a NaN nor infinite. -/
def isFinite : Binary64 → Bool
  | .finite .. => true
  | _ => false

/-- The double nearest to an integer, if that is finite. -/
def ofInt? (n : Int) : Option Binary64 :=
  let nearest := ofQuotient (decide (n < 0)) (unitsPerOne * n.natAbs) 1
  if nearest.isFinite then some nearest else none

/-- The double nearest to the exact product with a natural number. -/
def scale : Binary64 → Nat → Binary64
  | .finite negative mantissa shift _, factor =>
    ofQuotient negative (factor * (mantissa * Nat.pow 2 shift)) 1
  | x, _ => x

/-- The double nearest to the exact product. -/
def multiply : Binary64 → Binary64 → Binary64
  | .nan, _ => .nan
  | _, .nan => .nan
  | .finite a m s _, .finite b n t _ =>
    ofQuotient (a != b) (m * Nat.pow 2 s * (n * Nat.pow 2 t)) unitsPerOne
  | .infinite a, .infinite b => .infinite (a != b)
  | .infinite a, .finite b n _ _ => if n = 0 then .nan else .infinite (a != b)
  | .finite a m _ _, .infinite b => if m = 0 then .nan else .infinite (a != b)

/-- The double nearest to the exact quotient by a natural number. -/
def divide : Binary64 → Nat → Binary64
  | .finite negative mantissa shift _, divisor =>
    ofQuotient negative (mantissa * Nat.pow 2 shift) divisor
  | x, _ => x

/-- The double nearest to the exact sum. -/
def add : Binary64 → Binary64 → Binary64
  | .nan, _ => .nan
  | _, .nan => .nan
  | .infinite a, .infinite b => if a = b then .infinite a else .nan
  | .infinite a, _ => .infinite a
  | _, .infinite b => .infinite b
  | .finite a m s _, .finite b n t _ =>
    let sum := withSign a (m * Nat.pow 2 s) + withSign b (n * Nat.pow 2 t)
    ofQuotient (if sum = 0 then a && b else decide (sum < 0)) sum.natAbs 1

/-- The number with the opposite sign. -/
def negate : Binary64 → Binary64
  | .nan => .nan
  | .infinite negative => .infinite (!negative)
  | .finite negative mantissa shift canonical => .finite (!negative) mantissa shift canonical

/-- The double nearest to the number rounded to `places` decimal places, both times with ties to
even. -/
def roundTo (places : Nat) : Binary64 → Binary64
  | .finite negative mantissa shift _ =>
    let whole := roundQuotient (Nat.pow 10 places * (mantissa * Nat.pow 2 shift)) unitsPerOne
    ofQuotient negative (unitsPerOne * whole) (Nat.pow 10 places)
  | x => x

/-- The greatest integer that is not greater than a finite number. -/
def floor? : Binary64 → Option Int
  | .finite negative mantissa shift _ =>
    some (Int.fdiv (withSign negative (mantissa * Nat.pow 2 shift)) unitsPerOne)
  | _ => none

end Binary64

end TrainingCollar
