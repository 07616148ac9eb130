import TrainingCollar.Number.Decimal

/-! # Layout of decimal numbers

A `Layout` says when a decimal is written positionally and when with an exponent, and where a zero
after the point is kept. `Binary64.text` writes a double with its shortest digits and
`Binary64.brief` with six significant digits.
-/

namespace TrainingCollar

/-- The decisions of a written form of decimal numbers. -/
structure Layout where
  /-- The least decimal exponent of the leading digit that is written positionally. -/
  plainFrom : Int
  /-- The least greater exponent that is not. -/
  plainBelow : Int
  /-- Whether a whole number in positional form ends in `.0`. -/
  pointZero : Bool
  /-- Whether a single digit before an exponent is followed by `.0`. -/
  exponentPointZero : Bool

namespace Layout

/-- The exponent of a number: a sign and at least two digits. -/
def exponentText (e : Int) : List Char :=
  let digits := Decimal.digitsOf e.natAbs
  'e' :: (if e < 0 then '-' else '+') :: (if digits.length < 2 then '0' :: digits else digits)

/-- The digits of a decimal that has no trailing zeros, laid out. -/
def render (layout : Layout) (d : Decimal) : List Char :=
  let digits := Decimal.digitsOf d.digits
  let point := (digits.length : Int) + d.exponent
  let leading := point - 1
  if layout.plainFrom ≤ leading ∧ leading < layout.plainBelow then
    if point ≤ 0 then
      '0' :: '.' :: (List.replicate (-point).toNat '0' ++ digits)
    else if point < digits.length then
      digits.take point.toNat ++ '.' :: digits.drop point.toNat
    else
      digits ++ List.replicate d.exponent.toNat '0' ++ (if layout.pointZero then ['.', '0'] else [])
  else
    match digits with
    | [] => []
    | [digit] =>
      digit :: ((if layout.exponentPointZero then ['.', '0'] else []) ++ exponentText leading)
    | digit :: rest => digit :: '.' :: (rest ++ exponentText leading)

/-- Numbers are shown positionally from `0.0001` up to sixteen digits, whole numbers with `.0`. -/
def plain : Layout := ⟨-4, 16, true, false⟩

/-- Numbers in documents: as `plain`, and with a point in every number. -/
def document : Layout := ⟨-4, 16, true, true⟩

/-- Numbers in summaries: six digits at most, without trailing zeros. -/
def summary : Layout := ⟨-4, 6, false, false⟩

end Layout

namespace Binary64

/-- A sign, if any, before a text. -/
def signed (negative : Bool) (text : List Char) : String :=
  String.ofList (if negative then '-' :: text else text)

/-- The text of a number with its shortest digits. -/
def text : Binary64 → String
  | .nan => "nan"
  | .infinite negative => signed negative ['i', 'n', 'f']
  | .finite negative mantissa shift _ =>
    signed negative (Layout.plain.render (Decimal.shortest mantissa shift))

/-- The text of a number with at most six significant digits. -/
def brief : Binary64 → String
  | .nan => "nan"
  | .infinite negative => signed negative ['i', 'n', 'f']
  | .finite negative mantissa shift _ =>
    signed negative (Layout.summary.render (Decimal.significant 6 (mantissa * Nat.pow 2 shift)))

end Binary64

end TrainingCollar
