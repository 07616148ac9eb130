import TrainingCollar.Number.Layout

/-! # Numbers

A number is an integer of any size or a double, and keeps its kind. The two kinds share one order,
which compares exact values.
-/

namespace TrainingCollar

/-- An integer or a double. -/
inductive Number where
  | int (n : Int)
  | float (x : Binary64)
deriving DecidableEq

namespace Number

/-- Where the number lies; a NaN lies nowhere. -/
def place : Number → Option Place
  | .int n => some (.at (Binary64.unitsPerOne * n))
  | .float x => x.place

/-- The order of exact values. Nothing compares with a NaN. -/
def le (a b : Number) : Bool :=
  match a.place, b.place with
  | some p, some q => p.le q
  | _, _ => false

/-- Equality of exact values. A NaN equals nothing. -/
def same (a b : Number) : Bool :=
  match a.place, b.place with
  | some p, some q => decide (p = q)
  | _, _ => false

/-- The double nearest to the number, unless an integer has none that is finite. -/
def toBinary64? : Number → Option Binary64
  | .int n => Binary64.ofInt? n
  | .float x => some x

/-- The double nearest to the quotient by a natural number, unless an integer has none that is
finite. -/
def divide? : Number → Nat → Option Binary64
  | .int n, divisor =>
    let quotient := Binary64.ofQuotient (decide (n < 0)) (Binary64.unitsPerOne * n.natAbs) divisor
    if quotient.isFinite then some quotient else none
  | .float x, divisor => some (x.divide divisor)

/-- The text of a number with all its digits. -/
def text : Number → String
  | .int n => toString n
  | .float x => x.text

end Number

end TrainingCollar
