import TrainingCollar.Proofs.Coercion
import TrainingCollar.Proofs.Number.Magnitude

/-! # Exact values

A finite double is a rational number, and so is an integer. Numbers that a field takes are compared as
these rational numbers are, whatever their kinds: `Number.Admitted.le_iff`, and for values
`Value.IsNumber.le?_eq`.
-/

namespace TrainingCollar

/-- The exact value of a finite double. What is not finite counts as zero. -/
def Binary64.exact : Binary64 → ℚ
  | .finite negative mantissa shift _ =>
    (if negative then -1 else 1) * mantissa * 2 ^ ((shift : ℤ) - 1074)
  | _ => 0

/-- The exact value of a number. -/
def Number.exact : Number → ℚ
  | .int n => n
  | .float x => x.exact

/-- The exact value of a number as a value. What is no number counts as zero. -/
def Value.exact : Value → ℚ
  | .int n => n
  | .float x => x.exact
  | _ => 0

@[simp] theorem Value.exact_int (n : Int) : (Value.int n).exact = n := rfl

@[simp] theorem Value.exact_ofNumber (n : Number) : (ofNumber n).exact = n.exact := by
  cases n <;> rfl

/-- A finite double lies at its exact value, counted in units. -/
theorem Binary64.place_of_isFinite {x : Binary64} (isFinite : x.isFinite = true) :
    ∃ units : ℤ, x.place = some (.at units) ∧ (units : ℚ) = unitsPerOne * x.exact := by
  cases x with
  | nan => cases isFinite
  | infinite negative => cases isFinite
  | finite negative mantissa shift canonical =>
    refine ⟨withSign negative (mantissa * Nat.pow 2 shift), rfl, ?_⟩
    have grid : (2 : ℚ) ^ ((shift : ℤ) - 1074) * 2 ^ 1074 = 2 ^ shift := by
      rw [zpow_sub₀ two_ne_zero, zpow_natCast, zpow_ofNat]
      exact div_mul_cancel₀ _ (pow_ne_zero _ two_ne_zero)
    have scaled (sign : ℚ) : 2 ^ 1074 * (sign * mantissa * 2 ^ ((shift : ℤ) - 1074)) =
        sign * (mantissa * 2 ^ shift) := by
      rw [← grid]
      generalize (2 : ℚ) ^ 1074 = scale
      ring
    rw [unitsPerOne_cast, exact, scaled]
    cases negative <;> simp [withSign]

/-- A double that is small as a rational number is small in units. -/
theorem Binary64.atMost_of_exact {x : Binary64} {order : Nat} (isFinite : x.isFinite = true)
    (small : |x.exact| ≤ 2 ^ order) : x.AtMost (1074 + order) := by
  obtain ⟨units, isPlace, isUnits⟩ := place_of_isFinite isFinite
  have few : units.natAbs ≤ 2 ^ (1074 + order) := by
    have scaled : |(units : ℚ)| ≤ 2 ^ 1074 * 2 ^ order := by
      rw [isUnits, abs_mul, unitsPerOne_cast, abs_of_nonneg (by positivity)]
      exact mul_le_mul_of_nonneg_left small (by positivity)
    rw [← pow_add, ← Int.cast_abs, Int.abs_eq_natAbs, Int.cast_natCast] at scaled
    exact_mod_cast scaled
  cases x with
  | finite negative mantissa shift =>
    cases isPlace
    have magnitude (n : Nat) : (withSign negative n).natAbs = n := by cases negative <;> simp [withSign]
    rwa [magnitude] at few
  | nan | infinite => cases isFinite

/-- A strength that a device accepts has few binary digits. -/
theorem Number.natAbs_of_exact {n : Int} (least : 0 ≤ (Number.int n).exact)
    (most : (Number.int n).exact ≤ 100) : n.natAbs ≤ 2 ^ 7 := by
  have notNegative : 0 ≤ n := Int.cast_nonneg_iff.mp least
  have few : n ≤ 100 := by
    change (n : ℚ) ≤ 100 at most
    exact_mod_cast most
  omega

namespace Number.Admitted

variable {a b : Number}

theorem place_eq (admitted : a.Admitted) :
    ∃ units : ℤ, a.place = some (.at units) ∧ (units : ℚ) = Binary64.unitsPerOne * a.exact := by
  cases a with
  | int n =>
    refine ⟨Binary64.unitsPerOne * n, rfl, ?_⟩
    rw [Int.cast_mul, Int.cast_natCast]
    rfl
  | float x => exact Binary64.place_of_isFinite admitted

/-- Comparing numbers is comparing their exact values. -/
theorem le_iff (left : a.Admitted) (right : b.Admitted) : a.le b = true ↔ a.exact ≤ b.exact := by
  obtain ⟨units, isPlace, isUnits⟩ := left.place_eq
  obtain ⟨others, isOther, isOthers⟩ := right.place_eq
  have positive : (0 : ℚ) < Binary64.unitsPerOne := by exact_mod_cast Binary64.unitsPerOne_pos
  rw [← mul_le_mul_iff_of_pos_left positive, ← isUnits, ← isOthers, Int.cast_le, Number.le, isPlace,
    isOther]
  exact decide_eq_true_iff

end Number.Admitted

namespace Value

variable {v w : Value}

theorem isNumber_int {n : Int} (near : (Binary64.ofInt? n).isSome = true) : IsNumber (.int n) :=
  ⟨.int n, near, rfl⟩

/-- Values that are numbers are ordered as their exact values. -/
theorem IsNumber.le?_eq (left : v.IsNumber) (right : w.IsNumber) :
    v.le? w = some (decide (v.exact ≤ w.exact)) := by
  obtain ⟨a, admittedA, rfl⟩ := left
  obtain ⟨b, admittedB, rfl⟩ := right
  rw [le?_ofNumber, exact_ofNumber, exact_ofNumber, Option.some.injEq, Bool.eq_iff_iff,
    decide_eq_true_iff]
  exact admittedA.le_iff admittedB

theorem IsNumber.le?_iff (left : v.IsNumber) (right : w.IsNumber) :
    v.le? w = some true ↔ v.exact ≤ w.exact := by
  rw [left.le?_eq right, Option.some.injEq, decide_eq_true_iff]

end Value

end TrainingCollar
