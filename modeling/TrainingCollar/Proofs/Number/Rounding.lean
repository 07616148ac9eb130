import Mathlib.Algebra.Order.Field.Power
import Mathlib.Tactic.FieldSimp
import Mathlib.Tactic.Linarith
import Mathlib.Tactic.NormNum
import Mathlib.Tactic.Positivity
import Mathlib.Tactic.Ring
import TrainingCollar.Number.Decimal

/-! # Rounding to doubles and back

`Binary64.Nearest` says of a rational number of units that a double is the one it rounds to: it lies
between the midpoints to the two neighbours, on one of them only if the mantissa is even. Rounding
finds that double, and the shortest decimal of a double is such a number. So whoever reads the
shortest decimal, or another one of the same value, gets the double back.
-/

namespace TrainingCollar

/-- A whole number that lies within half of the quotient, or at half if it is even, is what the
quotient rounds to. -/
theorem roundQuotient_eq {num den m : Nat} (positive : 0 < den)
    (low : 2 * m * den < 2 * num + den ∨ m % 2 = 0 ∧ 2 * m * den = 2 * num + den)
    (high : 2 * num < 2 * m * den + den ∨ m % 2 = 0 ∧ 2 * num = 2 * m * den + den) :
    roundQuotient num den = m := by
  have parts : den * (num / den) + num % den = num := Nat.div_add_mod num den
  have small : num % den < den := Nat.mod_lt num positive
  unfold roundQuotient
  generalize num / den = quotient at parts ⊢
  generalize num % den = remainder at parts small ⊢
  subst parts
  have atMost : quotient ≤ m := by
    by_contra more
    have step : den * (m + 1) ≤ den * quotient := Nat.mul_le_mul_left den (by omega)
    have spread : den * (m + 1) = m * den + den := by ring
    have double : 2 * m * den = 2 * (m * den) := by ring
    omega
  have atLeast : m ≤ quotient + 1 := by
    by_contra more
    have step : den * (quotient + 2) ≤ den * m := Nat.mul_le_mul_left den (by omega)
    have spread : den * (quotient + 2) = den * quotient + 2 * den := by ring
    have double : 2 * m * den = 2 * (den * m) := by ring
    omega
  dsimp only
  rcases Nat.lt_or_ge quotient m with below | notBelow
  · obtain rfl : m = quotient + 1 := by omega
    have spread : 2 * (quotient + 1) * den = 2 * (den * quotient) + 2 * den := by ring
    split
    · omega
    · split <;> omega
  · obtain rfl : m = quotient := by omega
    have spread : 2 * m * den = 2 * (den * m) := by ring
    split
    · rfl
    · split <;> omega

namespace Binary64

theorem unitsPerOne_pos : 0 < unitsPerOne := by
  rw [unitsPerOne, Nat.pow_eq]
  positivity

/-- Four times the midpoint to the next smaller double. Below a power of two the doubles are closer
together. -/
def lowMark (mantissa shift : Nat) : Nat :=
  (4 * mantissa - if mantissa == Nat.pow 2 52 && shift != 0 then 1 else 2) * Nat.pow 2 shift

/-- Four times the midpoint to the next greater double. -/
def highMark (mantissa shift : Nat) : Nat := (4 * mantissa + 2) * Nat.pow 2 shift

/-- A number of units rounds to the double with this mantissa and shift. -/
structure Nearest (mantissa shift : Nat) (x : ℚ) : Prop where
  low : (lowMark mantissa shift : ℚ) < 4 * x ∨
    mantissa % 2 = 0 ∧ (lowMark mantissa shift : ℚ) = 4 * x
  high : 4 * x < highMark mantissa shift ∨ mantissa % 2 = 0 ∧ 4 * x = highMark mantissa shift

/-- The same of a quotient of natural numbers, without division. -/
theorem nearest_div_iff {mantissa shift num den : Nat} (positive : 0 < den) :
    Nearest mantissa shift (num / den) ↔
      (lowMark mantissa shift * den < 4 * num ∨
        mantissa % 2 = 0 ∧ lowMark mantissa shift * den = 4 * num) ∧
      (4 * num < highMark mantissa shift * den ∨
        mantissa % 2 = 0 ∧ 4 * num = highMark mantissa shift * den) := by
  have pos : (0 : ℚ) < den := by exact_mod_cast positive
  have asDiv : 4 * ((num : ℚ) / den) = (4 * num : ℕ) / den := by
    push_cast
    ring
  have lowLt : (lowMark mantissa shift : ℚ) < 4 * (num / den) ↔
      lowMark mantissa shift * den < 4 * num := by
    rw [asDiv, lt_div_iff₀ pos]
    exact_mod_cast Iff.rfl
  have lowEq : (lowMark mantissa shift : ℚ) = 4 * (num / den) ↔
      lowMark mantissa shift * den = 4 * num := by
    rw [asDiv, eq_div_iff pos.ne']
    exact_mod_cast Iff.rfl
  have highLt : 4 * ((num : ℚ) / den) < highMark mantissa shift ↔
      4 * num < highMark mantissa shift * den := by
    rw [asDiv, div_lt_iff₀ pos]
    exact_mod_cast Iff.rfl
  have highEq : 4 * ((num : ℚ) / den) = highMark mantissa shift ↔
      4 * num = highMark mantissa shift * den := by
    rw [asDiv, div_eq_iff pos.ne']
    exact_mod_cast Iff.rfl
  constructor
  · rintro ⟨low, high⟩
    rw [lowLt, lowEq] at low
    rw [highLt, highEq] at high
    exact ⟨low, high⟩
  · rintro ⟨low, high⟩
    refine ⟨?_, ?_⟩
    · rw [lowLt, lowEq]
      exact low
    · rw [highLt, highEq]
      exact high

theorem ofParts_eq (negative : Bool) {mantissa shift : Nat} (canonical : Canonical mantissa shift) :
    ofParts negative mantissa shift = .finite negative mantissa shift canonical :=
  dif_pos canonical

/-- The shift that rounding chooses, from the binary order of the quotient. -/
theorem log2_div_eq {num den k shift : Nat} (positive : 0 < den) (low : 2 ^ k * (den * 2 ^ shift) ≤ num)
    (high : num < 2 ^ (k + 1) * (den * 2 ^ shift)) : (num / den).log2 = k + shift := by
  have spread : ∀ order, 2 ^ order * (den * 2 ^ shift) = 2 ^ (order + shift) * den := by
    intro order
    rw [pow_add]
    ring
  rw [spread] at low high
  rw [Nat.add_right_comm] at high
  have least : 2 ^ (k + shift) ≤ num / den := (Nat.le_div_iff_mul_le positive).mpr low
  have most : num / den < 2 ^ (k + shift + 1) := (Nat.div_lt_iff_lt_mul positive).mpr high
  have nonzero : num / den ≠ 0 := Nat.ne_of_gt (Nat.lt_of_lt_of_le (Nat.two_pow_pos _) least)
  exact (Nat.log2_eq_iff nonzero).mpr ⟨least, most⟩

/-- What rounding answers, given the shift that it chooses. -/
theorem ofQuotient_of_shift (negative : Bool) {num den mantissa shift : Nat}
    (canonical : Canonical mantissa shift) (isShift : (num / den).log2 + 1 - 53 = shift)
    (rounded : roundQuotient num (den * Nat.pow 2 shift) = mantissa) :
    ofQuotient negative num den = .finite negative mantissa shift canonical := by
  have notFull : mantissa ≠ Nat.pow 2 53 := Nat.ne_of_lt canonical.1
  simp only [ofQuotient, isShift, rounded, if_neg notFull]
  exact ofParts_eq negative canonical

variable {mantissa shift num den : Nat}

/-- The midpoint below, where the doubles are as far apart as above. -/
theorem lowMark_mul (wide : mantissa ≠ 4503599627370496 ∨ shift = 0) (nonzero : 0 < mantissa)
    (den : Nat) : lowMark mantissa shift * den + 2 * (den * 2 ^ shift) =
      4 * (mantissa * (den * 2 ^ shift)) := by
  have notNarrow : (mantissa == Nat.pow 2 52 && shift != 0) = false := by
    rcases wide with apart | rfl
    · have other : (mantissa == Nat.pow 2 52) = false := by simpa [Nat.pow_eq] using apart
      rw [other, Bool.false_and]
    · rw [bne_self_eq_false, Bool.and_false]
  obtain ⟨less, isLess⟩ : ∃ less, 4 * mantissa = less + 2 := ⟨4 * mantissa - 2, by omega⟩
  have spread : (less + 2) * (den * 2 ^ shift) = 4 * (mantissa * (den * 2 ^ shift)) := by
    rw [← isLess]
    ring
  rw [lowMark, notNarrow, if_neg Bool.false_ne_true, isLess, Nat.add_sub_cancel, ← spread, Nat.pow_eq]
  ring

/-- The midpoint above. -/
theorem highMark_mul (mantissa shift den : Nat) : highMark mantissa shift * den =
    4 * (mantissa * (den * 2 ^ shift)) + 2 * (den * 2 ^ shift) := by
  rw [highMark, Nat.pow_eq]
  ring

private theorem ofQuotient_least (negative : Bool) (canonical : Canonical mantissa 0)
    (nonzero : 0 < mantissa) (positive : 0 < den) (nearest : Nearest mantissa 0 (num / den)) :
    ofQuotient negative num den = .finite negative mantissa 0 canonical := by
  obtain ⟨low, high⟩ := (nearest_div_iff positive).mp nearest
  have few : mantissa < 9007199254740992 := canonical.1
  have lowEq := lowMark_mul (.inr rfl : mantissa ≠ 4503599627370496 ∨ 0 = 0) nonzero den
  rw [highMark_mul] at high
  rw [pow_zero, mul_one] at high lowEq
  have below : mantissa * den + den ≤ 9007199254740992 * den := by
    rw [← Nat.succ_mul]
    exact Nat.mul_le_mul_right den few
  refine ofQuotient_of_shift negative canonical ?_ ?_
  · have small : num / den < 2 ^ 53 := (Nat.div_lt_iff_lt_mul positive).mpr (by omega)
    rcases Nat.eq_zero_or_pos (num / den) with zero | some
    · rw [zero]
      rfl
    · have order := (Nat.log2_lt some.ne').mpr small
      omega
  · have assoc : 2 * mantissa * den = 2 * (mantissa * den) := by ring
    rw [Nat.pow_eq, pow_zero, mul_one]
    refine roundQuotient_eq positive ?_ ?_
    · omega
    · omega

/-- From the power of two of its own order on, a double with a full mantissa is rounded to on the
grid of its own shift. -/
private theorem ofQuotient_full (negative : Bool) (canonical : Canonical mantissa shift)
    (full : 4503599627370496 ≤ mantissa) (positive : 0 < den)
    (nearest : Nearest mantissa shift (num / den))
    (inOrder : 4503599627370496 * (den * 2 ^ shift) ≤ num) :
    ofQuotient negative num den = .finite negative mantissa shift canonical := by
  obtain ⟨low, high⟩ := (nearest_div_iff positive).mp nearest
  have few : mantissa < 9007199254740992 := canonical.1
  have gridPositive : 0 < den * 2 ^ shift := Nat.mul_pos positive (Nat.two_pow_pos shift)
  rw [highMark_mul] at high
  have below : mantissa * (den * 2 ^ shift) + den * 2 ^ shift ≤
      9007199254740992 * (den * 2 ^ shift) := by
    rw [← Nat.succ_mul]
    exact Nat.mul_le_mul_right _ few
  refine ofQuotient_of_shift negative canonical ?_ ?_
  · have isOrder : (num / den).log2 = 52 + shift := log2_div_eq positive (by omega) (by omega)
    omega
  · have assoc : 2 * mantissa * (den * 2 ^ shift) = 2 * (mantissa * (den * 2 ^ shift)) := by ring
    refine roundQuotient_eq gridPositive ?_ ?_
    · -- The least mantissa has a closer midpoint below, which the order rules out.
      by_cases least : mantissa = 4503599627370496
      · left
        have inGrid : mantissa * (den * 2 ^ shift) ≤ num := by
          rw [least]
          exact inOrder
        simp only [Nat.pow_eq]
        omega
      · have lowEq : lowMark mantissa shift * den + 2 * (den * 2 ^ shift) = _ :=
          lowMark_mul (.inl least) (by omega) den
        simp only [Nat.pow_eq]
        omega
    · simp only [Nat.pow_eq]
      omega

/-- Below the power of two of its order the double with the least full mantissa is rounded to on a
finer grid, where it has the first mantissa that is too great. -/
private theorem ofQuotient_narrow (negative : Bool)
    (canonical : Canonical 4503599627370496 (shift + 1)) (positive : 0 < den)
    (nearest : Nearest 4503599627370496 (shift + 1) (num / den))
    (outOfOrder : num < 4503599627370496 * (den * 2 ^ (shift + 1))) :
    ofQuotient negative num den = .finite negative 4503599627370496 (shift + 1) canonical := by
  have finer : den * 2 ^ (shift + 1) = 2 * (den * 2 ^ shift) := by
    rw [pow_succ]
    ring
  have above : 36028797018963966 * (den * 2 ^ shift) ≤ 4 * num := by
    have mark : lowMark 4503599627370496 (shift + 1) = 18014398509481983 * 2 ^ (shift + 1) := by
      simp [lowMark]
    have lowEq : lowMark 4503599627370496 (shift + 1) * den =
        36028797018963966 * (den * 2 ^ shift) := by
      rw [mark, Nat.mul_assoc, Nat.mul_comm (2 ^ (shift + 1)), finer]
      ring
    rw [← lowEq]
    exact ((nearest_div_iff positive).mp nearest).1.elim Nat.le_of_lt fun tie => tie.2.le
  rw [finer] at outOfOrder
  have gridPositive : 0 < den * 2 ^ shift := Nat.mul_pos positive (Nat.two_pow_pos shift)
  have isOrder : (num / den).log2 = 52 + shift := log2_div_eq positive (by omega) (by omega)
  clear finer nearest
  generalize isGrid : den * 2 ^ shift = grid at above outOfOrder gridPositive
  have isShift : (num / den).log2 + 1 - 53 = shift := by omega
  have rounded : roundQuotient num (den * Nat.pow 2 shift) = 9007199254740992 := by
    have low : 2 * 9007199254740992 * grid ≤ 2 * num + grid := by omega
    have high : 2 * num < 2 * 9007199254740992 * grid + grid := by omega
    rw [Nat.pow_eq, isGrid]
    exact roundQuotient_eq gridPositive ((Nat.lt_or_eq_of_le low).imp_right fun tie => ⟨rfl, tie⟩)
      (.inl high)
  have full : Nat.pow 2 53 = 9007199254740992 := by norm_num
  have half : Nat.pow 2 52 = 4503599627370496 := by norm_num
  unfold ofQuotient
  dsimp only
  rw [isShift, rounded, full, if_pos rfl, half]
  exact ofParts_eq negative canonical

/-- Rounding finds the double that a quotient is nearest to. -/
theorem ofQuotient_eq (negative : Bool) (canonical : Canonical mantissa shift)
    (nonzero : 0 < mantissa) (positive : 0 < den) (nearest : Nearest mantissa shift (num / den)) :
    ofQuotient negative num den = .finite negative mantissa shift canonical := by
  cases shift with
  | zero => exact ofQuotient_least negative canonical nonzero positive nearest
  | succ shift =>
    have full : 4503599627370496 ≤ mantissa := canonical.2.2.resolve_left (Nat.succ_ne_zero shift)
    by_cases inOrder : 4503599627370496 * (den * 2 ^ (shift + 1)) ≤ num
    · exact ofQuotient_full negative canonical full positive nearest inOrder
    · have below : num < 4503599627370496 * (den * 2 ^ (shift + 1)) := Nat.lt_of_not_le inOrder
      obtain rfl : mantissa = 4503599627370496 := by
        by_contra wide
        have lowEq : lowMark mantissa (shift + 1) * den + 2 * (den * 2 ^ (shift + 1)) = _ :=
          lowMark_mul (.inl wide) nonzero den
        have low : lowMark mantissa (shift + 1) * den ≤ 4 * num :=
          ((nearest_div_iff positive).mp nearest).1.elim Nat.le_of_lt fun tie => tie.2.le
        have more : 4503599627370496 * (den * 2 ^ (shift + 1)) + den * 2 ^ (shift + 1) ≤
            mantissa * (den * 2 ^ (shift + 1)) := by
          rw [← Nat.succ_mul]
          exact Nat.mul_le_mul_right _ (by omega)
        generalize den * 2 ^ (shift + 1) = grid at *
        omega
      exact ofQuotient_narrow negative canonical positive nearest below

end Binary64

/-! ## Decimals -/

namespace Decimal

open Binary64 (unitsPerOne Nearest lowMark highMark)

/-- The number that a decimal denotes. -/
def value (d : Decimal) : ℚ := d.digits * (10 : ℚ) ^ d.exponent

/-- A power of ten, as the quotient of two whole ones. -/
theorem zpow_eq_div (e : Int) :
    (10 : ℚ) ^ e = ((Nat.pow 10 e.toNat : ℕ) : ℚ) / (Nat.pow 10 (-e).toNat : ℕ) := by
  simp only [Nat.pow_eq]
  push_cast
  rcases Int.le_total 0 e with positive | negative
  · obtain ⟨n, rfl⟩ := Int.eq_ofNat_of_zero_le positive
    simp
  · obtain ⟨n, isNat⟩ := Int.eq_ofNat_of_zero_le (Int.neg_nonneg_of_nonpos negative)
    obtain rfl : e = -(n : Int) := by omega
    simp

/-- The value of a decimal in units, as the quotient that is rounded. -/
theorem units_value (d : Decimal) : (unitsPerOne : ℚ) * d.value =
    ((unitsPerOne * (d.digits * Nat.pow 10 d.exponent.toNat) : ℕ) : ℚ) /
      (Nat.pow 10 (-d.exponent).toNat : ℕ) := by
  rw [value, zpow_eq_div]
  push_cast
  ring

theorem pow_pos' (e : Int) : 0 < Nat.pow 10 e.toNat := Nat.pow_pos (by decide)

/-- The test that the search for the shortest decimal makes. -/
theorem readsBack_iff {mantissa shift : Nat} {d : Decimal} :
    readsBack mantissa shift d = true ↔ Nearest mantissa shift (unitsPerOne * d.value) := by
  have test : readsBack mantissa shift d =
      ((compareScaled d.digits d.exponent (lowMark mantissa shift) (4 * unitsPerOne) == .gt ||
          (mantissa % 2 == 0 &&
            compareScaled d.digits d.exponent (lowMark mantissa shift) (4 * unitsPerOne) == .eq)) &&
        (compareScaled d.digits d.exponent (highMark mantissa shift) (4 * unitsPerOne) == .lt ||
          (mantissa % 2 == 0 &&
            compareScaled d.digits d.exponent (highMark mantissa shift) (4 * unitsPerOne) == .eq))) :=
    rfl
  have units : d.digits * Nat.pow 10 d.exponent.toNat * (4 * unitsPerOne) =
      4 * (unitsPerOne * (d.digits * Nat.pow 10 d.exponent.toNat)) := by ring
  rw [units_value, Binary64.nearest_div_iff (pow_pos' _), test]
  simp only [compareScaled, units, Bool.and_eq_true, Bool.or_eq_true, beq_iff_eq,
    Nat.compare_eq_gt, Nat.compare_eq_lt, Nat.compare_eq_eq]
  rw [eq_comm (a := lowMark mantissa shift * _)]

theorem value_stripZeros (fuel : Nat) (d : Decimal) : (stripZeros fuel d).value = d.value := by
  induction fuel generalizing d with
  | zero => rfl
  | succ fuel ih =>
    unfold stripZeros
    split
    · next strips =>
      rw [ih]
      have parts : d.digits = 10 * (d.digits / 10) := by omega
      have cast : (d.digits : ℚ) = 10 * (d.digits / 10 : ℕ) := by exact_mod_cast parts
      simp only [value]
      rw [cast, zpow_add₀ (by norm_num), zpow_one]
      ring
    · rfl

theorem passes_of_choose? {passes : Decimal → Bool} {down up d : Decimal} {preferDown : Bool}
    (chosen : choose? passes down up preferDown = some d) : passes d = true := by
  unfold choose? at chosen
  split at chosen
  · next isDown _ =>
    rw [← Option.some.inj chosen, isDown]
  · next _ isUp =>
    rw [← Option.some.inj chosen, isUp]
  · next isDown isUp =>
    rw [← Option.some.inj chosen]
    split
    · exact isDown
    · exact isUp
  · cases chosen

theorem readsBack_of_onGrid? {mantissa shift : Nat} {exponent : Int} {d : Decimal}
    (found : onGrid? mantissa shift exponent = some d) : readsBack mantissa shift d = true :=
  passes_of_choose? found

private theorem two_five_ten (units n : Nat) :
    ((Nat.pow 2 n : ℕ) : ℚ) * ((units * Nat.pow 5 n : ℕ) * (10 : ℚ) ^ (-(n : ℤ))) = units := by
  simp only [Nat.pow_eq]
  push_cast
  have ten : (2 : ℚ) ^ n * 5 ^ n = 10 ^ n := by
    rw [← mul_pow]
    norm_num
  rw [zpow_neg, zpow_natCast, ← ten]
  field_simp

theorem units_value_exact (units : Nat) : (unitsPerOne : ℚ) * (exact units).value = units :=
  two_five_ten units 1074

theorem nearest_exact {mantissa shift : Nat} (nonzero : 0 < mantissa) :
    Nearest mantissa shift (mantissa * Nat.pow 2 shift : ℕ) := by
  have grid : (0 : ℚ) < ((Nat.pow 2 shift : ℕ) : ℚ) := by exact_mod_cast Nat.two_pow_pos shift
  refine ⟨.inl ?_, .inl ?_⟩
  · have less : lowMark mantissa shift < 4 * (mantissa * Nat.pow 2 shift) := by
      rw [lowMark, ← Nat.mul_assoc]
      refine Nat.mul_lt_mul_of_pos_right ?_ (Nat.two_pow_pos shift)
      split <;> omega
    exact_mod_cast less
  · have more : 4 * (mantissa * Nat.pow 2 shift) < highMark mantissa shift := by
      rw [highMark, ← Nat.mul_assoc]
      exact Nat.mul_lt_mul_of_pos_right (by omega) (Nat.two_pow_pos shift)
    exact_mod_cast more

/-- The shortest decimal of a double rounds to it. -/
theorem nearest_shortest {mantissa shift : Nat} (nonzero : 0 < mantissa) :
    Nearest mantissa shift (unitsPerOne * (shortest mantissa shift).value) := by
  have some : mantissa * Nat.pow 2 shift ≠ 0 :=
    Nat.ne_of_gt (Nat.mul_pos nonzero (Nat.two_pow_pos shift))
  unfold shortest
  dsimp only
  rw [if_neg some, value_stripZeros]
  generalize List.map _ (List.range 17) = grids
  cases found : grids.findSome? (onGrid? mantissa shift) with
  | none =>
    rw [Option.getD_none, units_value_exact]
    exact nearest_exact nonzero
  | some d =>
    obtain ⟨exponent, _, onGrid⟩ := List.exists_of_findSome?_eq_some found
    exact readsBack_iff.mp (readsBack_of_onGrid? onGrid)

theorem shortest_zero (shift : Nat) : shortest 0 shift = ⟨0, 0⟩ := by
  unfold shortest
  dsimp only
  rw [if_pos (Nat.zero_mul _)]

/-- The number of digits and the exponent tell the magnitude of a decimal. -/
theorem value_bounds {d : Decimal} (nonzero : d.digits ≠ 0) :
    (10 : ℚ) ^ ((digitsOf d.digits).length + d.exponent - 1) ≤ d.value ∧
      d.value < (10 : ℚ) ^ ((digitsOf d.digits).length + d.exponent) := by
  have scalePositive : (0 : ℚ) < (10 : ℚ) ^ d.exponent := by positivity
  have size : 0 < (digitsOf d.digits).length := Nat.length_toDigits_pos
  have below : d.digits < 10 ^ (digitsOf d.digits).length :=
    (Nat.length_toDigits_le_iff (by decide) size).mp (Nat.le_refl _)
  have above : 10 ^ ((digitsOf d.digits).length - 1) ≤ d.digits := by
    by_contra less
    rcases Nat.eq_zero_or_pos ((digitsOf d.digits).length - 1) with one | more
    · rw [one, pow_zero] at less
      omega
    · have shorter : (digitsOf d.digits).length ≤ (digitsOf d.digits).length - 1 :=
        (Nat.length_toDigits_le_iff (by decide) more).mpr (Nat.lt_of_not_le less)
      omega
  obtain ⟨rest, isSize⟩ : ∃ rest, (digitsOf d.digits).length = rest + 1 :=
    ⟨(digitsOf d.digits).length - 1, by omega⟩
  rw [isSize] at below above ⊢
  refine ⟨?_, ?_⟩
  · have least : ((rest + 1 : ℕ) : Int) + d.exponent - 1 = (rest : Int) + d.exponent := by
      push_cast
      ring
    rw [least, zpow_add₀ (by norm_num), zpow_natCast, value]
    exact mul_le_mul_of_nonneg_right (by exact_mod_cast above) scalePositive.le
  · rw [zpow_add₀ (by norm_num), zpow_natCast, value]
    exact mul_lt_mul_of_pos_right (by exact_mod_cast below) scalePositive

end Decimal

namespace Binary64

open Decimal (value)

variable {mantissa shift : Nat}

theorem Nearest.one_le {x : ℚ} (nonzero : 0 < mantissa) (nearest : Nearest mantissa shift x) :
    1 ≤ 2 * x := by
  have two : 2 ≤ lowMark mantissa shift := by
    rw [lowMark]
    have grid : 1 ≤ Nat.pow 2 shift := Nat.two_pow_pos shift
    refine Nat.le_trans ?_ (Nat.mul_le_mul_left _ grid)
    split <;> omega
  have cast : (2 : ℚ) ≤ lowMark mantissa shift := by exact_mod_cast two
  have low : (lowMark mantissa shift : ℚ) ≤ 4 * x :=
    nearest.low.elim le_of_lt fun tie => tie.2.le
  linarith

theorem Nearest.lt_pow {x : ℚ} (canonical : Canonical mantissa shift)
    (nearest : Nearest mantissa shift x) : x < (2 : ℚ) ^ 2098 := by
  have few : mantissa < 9007199254740992 := canonical.1
  have most : highMark mantissa shift ≤ 36028797018963967 * 2 ^ 2045 := by
    rw [highMark, Nat.pow_eq]
    exact Nat.mul_le_mul (by omega) (Nat.pow_le_pow_right (by decide) canonical.2.1)
  have cast : (highMark mantissa shift : ℚ) ≤ 36028797018963967 * 2 ^ 2045 := by exact_mod_cast most
  have high : 4 * x ≤ highMark mantissa shift := nearest.high.elim le_of_lt fun tie => tie.2.le
  have order : (2 : ℚ) ^ 2098 = 9007199254740992 * 2 ^ 2045 := by
    rw [show (2098 : ℕ) = 53 + 2045 from rfl, pow_add]
    norm_num
  have positive : (0 : ℚ) < 2 ^ 2045 := by positivity
  rw [order]
  generalize (2 : ℚ) ^ 2045 = grid at cast positive ⊢
  linarith

theorem unitsPerOne_cast : (unitsPerOne : ℚ) = 2 ^ 1074 := by
  rw [unitsPerOne, Nat.pow_eq]
  exact Nat.cast_pow 2 1074

section Magnitude

/-! A decimal that lies between half a unit and the limit of the doubles is rounded, and not taken for
zero or for infinity beforehand. -/

variable {d : Decimal}

theorem digits_ne_zero_of_units (low : 1 ≤ 2 * (unitsPerOne * d.value)) : d.digits ≠ 0 := by
  intro noDigits
  rw [value, noDigits, Nat.cast_zero, zero_mul, mul_zero, mul_zero] at low
  exact absurd low (by norm_num)

theorem not_small_of_units (low : 1 ≤ 2 * (unitsPerOne * d.value)) :
    ¬((Decimal.digitsOf d.digits).length + d.exponent : Int) < -330 := by
  intro small
  have tiny : d.value ≤ ((10 : ℚ) ^ 330)⁻¹ := by
    refine (Decimal.value_bounds (digits_ne_zero_of_units low)).2.le.trans ?_
    rw [← zpow_natCast, ← zpow_neg]
    exact zpow_le_zpow_right₀ (by norm_num) (by omega)
  have scale : (2 : ℚ) * 2 ^ 1074 < 10 ^ 330 := by
    exact_mod_cast (by decide +kernel : 2 * 2 ^ 1074 < 10 ^ 330)
  have bounded : 2 * 2 ^ 1074 * d.value ≤ 2 * 2 ^ 1074 * ((10 : ℚ) ^ 330)⁻¹ :=
    mul_le_mul_of_nonneg_left tiny (by positivity)
  have less : 2 * 2 ^ 1074 * ((10 : ℚ) ^ 330)⁻¹ < 1 := by
    rw [← div_eq_mul_inv, div_lt_one (by positivity)]
    exact scale
  rw [unitsPerOne_cast, ← mul_assoc] at low
  exact absurd (low.trans bounded) (not_le.mpr less)

theorem not_great_of_units (nonzero : d.digits ≠ 0) (high : unitsPerOne * d.value < (2 : ℚ) ^ 2098) :
    ¬(310 : Int) < (Decimal.digitsOf d.digits).length + d.exponent := by
  intro great
  have huge : (10 : ℚ) ^ 310 ≤ d.value := by
    refine le_trans ?_ (Decimal.value_bounds nonzero).1
    rw [← zpow_natCast]
    exact zpow_le_zpow_right₀ (by norm_num) (by push_cast; omega)
  have scale : (2 : ℚ) ^ 2098 ≤ 2 ^ 1074 * 10 ^ 310 := by
    exact_mod_cast (by decide +kernel : 2 ^ 2098 ≤ 2 ^ 1074 * 10 ^ 310)
  have bounded : (2 : ℚ) ^ 1074 * 10 ^ 310 ≤ 2 ^ 1074 * d.value :=
    mul_le_mul_of_nonneg_left huge (by positivity)
  rw [unitsPerOne_cast] at high
  exact absurd (scale.trans bounded) (not_le.mpr high)

end Magnitude

/-- A decimal is read as the double that it is nearest to. -/
theorem ofDecimal_of_nearest (negative : Bool) (canonical : Canonical mantissa shift)
    (nonzero : 0 < mantissa) {d : Decimal} (nearest : Nearest mantissa shift (unitsPerOne * d.value)) :
    ofDecimal negative d = .finite negative mantissa shift canonical := by
  have low := nearest.one_le nonzero
  have someDigits := digits_ne_zero_of_units low
  have notGreat := not_great_of_units someDigits (nearest.lt_pow canonical)
  have inRange : ¬(d.digits = 0 ∨ ((Decimal.digitsOf d.digits).length + d.exponent : Int) < -330) :=
    not_or.mpr ⟨someDigits, not_small_of_units low⟩
  rw [Decimal.units_value] at nearest
  unfold ofDecimal
  dsimp only
  rw [if_neg inRange, if_neg notGreat]
  exact ofQuotient_eq negative canonical nonzero (Decimal.pow_pos' _) nearest

/-- Whoever reads a decimal of the same value as the shortest one of a double gets that double. -/
theorem ofDecimal_eq (negative : Bool) (canonical : Canonical mantissa shift) {d : Decimal}
    (same : d.value = (Decimal.shortest mantissa shift).value) :
    ofDecimal negative d = .finite negative mantissa shift canonical := by
  rcases Nat.eq_zero_or_pos mantissa with rfl | nonzero
  · obtain rfl : shift = 0 := canonical.2.2.resolve_right (by decide)
    have noDigits : d.digits = 0 := by
      have zero : d.value = 0 := by rw [same, Decimal.shortest_zero, value, Nat.cast_zero, zero_mul]
      rw [value] at zero
      have scale : (10 : ℚ) ^ d.exponent ≠ 0 := by positivity
      exact_mod_cast (mul_eq_zero.mp zero).resolve_right scale
    rw [ofDecimal, if_pos (.inl noDigits)]
    rfl
  · refine ofDecimal_of_nearest negative canonical nonzero ?_
    rw [same]
    exact Decimal.nearest_shortest nonzero

end Binary64

end TrainingCollar
