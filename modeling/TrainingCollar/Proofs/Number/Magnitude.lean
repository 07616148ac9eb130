import TrainingCollar.Proofs.Number.Rounding

/-! # How far doubles reach

`Binary64.AtMost` bounds the magnitude of a double by a power of two, in units. Rounding a quotient does
not go beyond a power of two that the quotient does not go beyond, so arithmetic with small numbers never
overflows, and neither does a division of any integer that itself is near a double.
-/

namespace TrainingCollar

/-- Rounding does not go beyond a whole number that the quotient does not go beyond. -/
theorem roundQuotient_le {num den bound : Nat} (positive : 0 < den) (small : num ≤ bound * den) :
    roundQuotient num den ≤ bound := by
  have parts : den * (num / den) + num % den = num := Nat.div_add_mod num den
  have atMost : num / den ≤ bound := by
    rw [Nat.mul_comm] at small
    exact Nat.div_le_of_le_mul small
  unfold roundQuotient
  rcases Nat.lt_or_ge (num / den) bound with below | reached
  · dsimp only
    split
    · exact atMost
    · split <;> omega
  · -- The quotient is the bound itself, so nothing is left over to be rounded up.
    obtain rfl : num / den = bound := Nat.le_antisymm atMost reached
    rw [Nat.mul_comm] at small
    have exact : num % den = 0 := by omega
    simp only [exact, Nat.mul_zero, positive, if_true, Nat.le_refl]

/-- Rounding does not go below the quotient rounded down. -/
theorem div_le_roundQuotient (num den : Nat) : num / den ≤ roundQuotient num den := by
  unfold roundQuotient
  dsimp only
  split
  · exact Nat.le_refl _
  · split <;> omega

namespace Binary64

variable {num den order : Nat} {x : Binary64}

theorem unitsPerOne_eq : unitsPerOne = 2 ^ 1074 := Nat.pow_eq

/-- Finite, and not farther from zero than a power of two, in units. -/
def AtMost (order : Nat) : Binary64 → Prop
  | .finite _ mantissa shift _ => mantissa * 2 ^ shift ≤ 2 ^ order
  | _ => False

theorem AtMost.isFinite (atMost : x.AtMost order) : x.isFinite = true := by
  cases x with
  | finite => rfl
  | nan | infinite => cases atMost

theorem atMost_ofParts (negative : Bool) {mantissa shift : Nat} (canonical : Canonical mantissa shift)
    (small : mantissa * 2 ^ shift ≤ 2 ^ order) : (ofParts negative mantissa shift).AtMost order := by
  rw [ofParts_eq negative canonical]
  exact small

/-- The shift that rounding chooses is the one that leaves 53 binary digits. -/
theorem lt_mul_of_shift {shift : Nat} (positive : 0 < den)
    (isShift : (num / den).log2 + 1 - 53 = shift) : num < 2 ^ 53 * (den * 2 ^ shift) := by
  have digits : num / den < 2 ^ (53 + shift) := by
    refine Nat.lt_of_lt_of_le (Nat.lt_log2_self (n := num / den)) ?_
    exact Nat.pow_le_pow_right (by decide) (by omega)
  have below : num < 2 ^ (53 + shift) * den := (Nat.div_lt_iff_lt_mul positive).mp digits
  rwa [pow_add, Nat.mul_assoc, Nat.mul_comm (2 ^ shift)] at below

theorem full_of_shift {shift : Nat} (positive : 0 < den)
    (isShift : (num / den).log2 + 1 - 53 = shift) (shifted : shift ≠ 0) :
    2 ^ 52 ≤ num / (den * 2 ^ shift) := by
  have nonzero : num / den ≠ 0 := by
    intro zero
    rw [zero] at isShift
    exact shifted (isShift.symm.trans (by decide))
  have digits : 2 ^ (52 + shift) ≤ num / den := by
    have order : (num / den).log2 = 52 + shift := by omega
    rw [← order]
    exact Nat.log2_self_le nonzero
  have least : 2 ^ (52 + shift) * den ≤ num := (Nat.le_div_iff_mul_le positive).mp digits
  rw [pow_add, Nat.mul_assoc, Nat.mul_comm (2 ^ shift)] at least
  exact (Nat.le_div_iff_mul_le (Nat.mul_pos positive (Nat.two_pow_pos shift))).mpr least

/-- A quotient that a power of two bounds is shifted by no more than its exponent. -/
theorem shift_le_of_small {shift : Nat} (isShift : (num / den).log2 + 1 - 53 = shift)
    (small : num ≤ 2 ^ order * den) : shift ≤ order - 52 := by
  have quotient : num / den ≤ 2 ^ order := by
    rw [Nat.mul_comm] at small
    exact Nat.div_le_of_le_mul small
  have beyond : num / den < 2 ^ (order + 1) :=
    Nat.lt_of_le_of_lt quotient (Nat.pow_lt_pow_succ (by decide))
  rcases Nat.eq_zero_or_pos (num / den) with zero | some
  · rw [zero] at isShift
    have none : shift = 0 := isShift.symm.trans (by decide)
    omega
  · have log := (Nat.log2_lt (Nat.ne_of_gt some)).mpr beyond
    omega

/-- The power of two bounds what comes out of rounding too, at the scale of the quotient. -/
theorem roundQuotient_mul_le {shift : Nat} (positive : 0 < den) (small : num ≤ 2 ^ order * den)
    (within : shift ≤ order) : roundQuotient num (den * 2 ^ shift) * 2 ^ shift ≤ 2 ^ order := by
  have scaled : 0 < den * 2 ^ shift := Nat.mul_pos positive (Nat.two_pow_pos shift)
  have split : 2 ^ (order - shift) * 2 ^ shift = 2 ^ order := by
    rw [← pow_add, Nat.sub_add_cancel within]
  rw [← split] at small ⊢
  refine Nat.mul_le_mul_right _ (roundQuotient_le scaled ?_)
  rwa [Nat.mul_comm den, ← Nat.mul_assoc]

/-- A quotient that does not go beyond a power of two rounds to a double that does not either. -/
theorem atMost_ofQuotient (negative : Bool) (positive : 0 < den) (small : num ≤ 2 ^ order * den)
    (room : order ≤ 2097) : (ofQuotient negative num den).AtMost order := by
  unfold ofQuotient
  simp only [Nat.pow_eq]
  generalize isShift : (num / den).log2 + 1 - 53 = shift
  have scaled : 0 < den * 2 ^ shift := Nat.mul_pos positive (Nat.two_pow_pos shift)
  have few : roundQuotient num (den * 2 ^ shift) ≤ 2 ^ 53 :=
    roundQuotient_le scaled (Nat.le_of_lt (lt_mul_of_shift positive isShift))
  have full : shift = 0 ∨ 2 ^ 52 ≤ roundQuotient num (den * 2 ^ shift) := by
    by_cases shifted : shift = 0
    · exact .inl shifted
    · exact .inr ((full_of_shift positive isShift shifted).trans (div_le_roundQuotient _ _))
  have within : shift ≤ order - 52 := shift_le_of_small isShift small
  have total := roundQuotient_mul_le positive small (within.trans (Nat.sub_le _ _))
  generalize roundQuotient num (den * 2 ^ shift) = mantissa at few full total ⊢
  split
  · next carried =>
    subst carried
    have double : 2 ^ 52 * 2 ^ (shift + 1) = 2 ^ 53 * 2 ^ shift := by
      rw [← pow_add, ← pow_add]
      congr 1
      omega
    have room : 53 + shift ≤ order := by
      rw [← pow_add] at total
      exact (Nat.pow_le_pow_iff_right (by decide)).mp total
    refine atMost_ofParts negative ⟨by decide, by omega, .inr (Nat.le_refl _)⟩ ?_
    rwa [double]
  · next notCarried =>
    exact atMost_ofParts negative ⟨Nat.lt_of_le_of_ne few notCarried, by omega, full⟩ total

namespace AtMost

variable {divisor factor more : Nat}

/-- Dividing by a natural number leads no farther from zero, -/
theorem divide (atMost : x.AtMost order) (positive : 0 < divisor) (room : order ≤ 2097) :
    (x.divide divisor).AtMost order := by
  cases x with
  | finite negative mantissa shift =>
    apply atMost_ofQuotient negative positive _ room
    exact Nat.le_trans atMost (Nat.le_mul_of_pos_right _ positive)
  | nan | infinite => cases atMost

/-- multiplying by one as far as the factor, -/
theorem scale (atMost : x.AtMost order) (small : factor ≤ 2 ^ more) (room : order + more ≤ 2097) :
    (x.scale factor).AtMost (order + more) := by
  cases x with
  | finite negative mantissa shift =>
    apply atMost_ofQuotient negative Nat.one_pos _ room
    rw [Nat.mul_one, pow_add, Nat.mul_comm (2 ^ order)]
    exact Nat.mul_le_mul small atMost
  | nan | infinite => cases atMost

/-- and rounding to decimal places not past a power of two that is at least one. -/
theorem roundTo (atMost : x.AtMost order) (places : Nat) (whole : 1074 ≤ order)
    (room : order ≤ 2097) : (x.roundTo places).AtMost order := by
  cases x with
  | finite negative mantissa shift =>
    have units : 2 ^ (order - 1074) * unitsPerOne = 2 ^ order := by
      rw [unitsPerOne_eq, ← pow_add, Nat.sub_add_cancel whole]
    have rounded : roundQuotient (10 ^ places * (mantissa * 2 ^ shift)) unitsPerOne ≤
        10 ^ places * 2 ^ (order - 1074) := by
      apply roundQuotient_le unitsPerOne_pos
      rw [Nat.mul_assoc, units]
      exact Nat.mul_le_mul_left _ atMost
    apply atMost_ofQuotient negative (Nat.pow_pos (by decide)) _ room
    calc unitsPerOne * roundQuotient (10 ^ places * (mantissa * 2 ^ shift)) unitsPerOne
      _ ≤ unitsPerOne * (10 ^ places * 2 ^ (order - 1074)) := Nat.mul_le_mul_left _ rounded
      _ = 2 ^ order * 10 ^ places := by
        rw [← units]
        ring
  | nan | infinite => cases atMost

end AtMost

/-- A finite double has a greatest integer below it. -/
theorem floor?_of_isFinite (isFinite : x.isFinite = true) : ∃ n, x.floor? = some n := by
  cases x with
  | finite negative mantissa shift => exact ⟨_, rfl⟩
  | nan | infinite => cases isFinite

/-! ## Integers -/

/-- A double is near every integer of a thousand binary digits, -/
theorem isSome_ofInt? {n : Int} (small : n.natAbs ≤ 2 ^ 1000) : (ofInt? n).isSome = true := by
  have atMost : (ofQuotient (decide (n < 0)) (unitsPerOne * n.natAbs) 1).AtMost 2074 := by
    apply atMost_ofQuotient _ Nat.one_pos _ (by decide)
    rw [Nat.mul_one]
    calc unitsPerOne * n.natAbs ≤ unitsPerOne * 2 ^ 1000 := Nat.mul_le_mul_left _ small
      _ = 2 ^ 2074 := by rw [unitsPerOne_eq, ← pow_add]
  simp only [ofInt?, atMost.isFinite, if_true, Option.isSome_some]

theorem isFinite_ofParts_of_large (negative : Bool) (mantissa : Nat) {shift : Nat}
    (large : 2045 < shift) : (ofParts negative mantissa shift).isFinite = false := by
  have notCanonical : ¬Canonical mantissa shift := fun canonical =>
    absurd canonical.2.1 (Nat.not_le_of_lt large)
  rw [ofParts, dif_neg notCanonical]
  rfl

/-- and none near an integer of more than 1024. -/
theorem natAbs_lt_of_ofInt? {n : Int} (near : (ofInt? n).isSome = true) : n.natAbs < 2 ^ 1024 := by
  by_contra large
  rw [Nat.not_lt] at large
  have least : 2 ^ (1074 + 1024) ≤ unitsPerOne * n.natAbs := by
    rw [Nat.pow_add, ← unitsPerOne_eq]
    exact Nat.mul_le_mul_left _ large
  have beyond : 2045 < (unitsPerOne * n.natAbs / 1).log2 + 1 - 53 := by
    have positive : unitsPerOne * n.natAbs ≠ 0 :=
      Nat.ne_of_gt (Nat.lt_of_lt_of_le (Nat.two_pow_pos _) least)
    have log := (Nat.le_log2 positive).mpr least
    rw [Nat.div_one]
    omega
  have notFinite : ¬(ofQuotient (decide (n < 0)) (unitsPerOne * n.natAbs) 1).isFinite = true := by
    rw [Bool.not_eq_true]
    unfold ofQuotient
    dsimp only
    split
    · exact isFinite_ofParts_of_large _ _ (Nat.lt_succ_of_lt beyond)
    · exact isFinite_ofParts_of_large _ _ beyond
  rw [ofInt?, if_neg notFinite] at near
  cases near

/-- Half of an integer that a double is near, and anything less of it, is near a double. -/
theorem isFinite_ofQuotient_ofInt? {n : Int} {divisor : Nat} (negative : Bool)
    (near : (ofInt? n).isSome = true) (half : 2 ≤ divisor) :
    (ofQuotient negative (unitsPerOne * n.natAbs) divisor).isFinite = true := by
  have atMost : (ofQuotient negative (unitsPerOne * n.natAbs) divisor).AtMost 2097 := by
    apply atMost_ofQuotient negative (by omega) _ (Nat.le_refl _)
    calc unitsPerOne * n.natAbs
      _ ≤ unitsPerOne * 2 ^ 1024 := Nat.mul_le_mul_left _ (Nat.le_of_lt (natAbs_lt_of_ofInt? near))
      _ = 2 ^ 2097 * 2 := by rw [unitsPerOne_eq, ← pow_add, ← pow_succ]
      _ ≤ 2 ^ 2097 * divisor := Nat.mul_le_mul_left _ half
  exact atMost.isFinite

end Binary64

end TrainingCollar
