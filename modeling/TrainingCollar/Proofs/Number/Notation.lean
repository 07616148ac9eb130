import Mathlib.Data.List.TakeWhile
import TrainingCollar.Proofs.Number.Magnitude
import TrainingCollar.Value.Text
import TrainingCollar.Yaml.Printer

/-! # Numbers as documents write them

What a document says of a number is enough to tell its kind and to read it back. Every written double
has the form `Written`: digits, a point, digits, and perhaps an exponent.
-/

namespace TrainingCollar.Yaml

/-- What tells two characters apart. -/
theorem ne_of_class {p : Char → Bool} {c d : Char} (holds : p c = true) (other : p d = false) :
    c ≠ d := by
  rintro rfl
  rw [holds] at other
  cases other

/-! ## Digits -/

theorem isDigit_of_mem_digitsOf {n : Nat} {c : Char} (member : c ∈ Decimal.digitsOf n) :
    isDigit c = true :=
  Nat.isDigit_of_mem_toDigits (by decide) (by decide) member

/-- The code of a digit. -/
theorem code_of_isDigit {c : Char} (digit : isDigit c = true) : 48 ≤ c.toNat ∧ c.toNat ≤ 57 := by
  simp only [isDigit, Bool.and_eq_true, decide_eq_true_eq] at digit
  exact digit

theorem digitValue?_of_isDigit {c : Char} (digit : isDigit c = true) :
    Text.digitValue? c = some (c.toNat - 48) := by
  have code := code_of_isDigit digit
  have first : (decide (48 ≤ c.toNat) && decide (c.toNat < 48 + 10)) = true := by
    rw [Bool.and_eq_true, decide_eq_true_eq, decide_eq_true_eq]
    omega
  simp only [Text.digitValue?, Text.zeros, List.find?_cons, first]
  rfl

theorem isAnyDigit_of_isDigit {c : Char} (digit : isDigit c = true) : isAnyDigit c = true := by
  rw [isAnyDigit, digitValue?_of_isDigit digit]
  rfl

theorem isDigitOrGap_of_isDigit {c : Char} (digit : isDigit c = true) : isDigitOrGap c = true := by
  rw [isDigitOrGap, digit, Bool.true_or]

theorem digitOf?_of_isDigit {c : Char} (digit : isDigit c = true) :
    digitOf? c = some (c.toNat - 48) := by
  have code := code_of_isDigit digit
  have notSmall : ¬('a' ≤ c ∧ c ≤ 'f') := by
    rintro ⟨from97, _⟩
    have least : 97 ≤ c.toNat := from97
    omega
  have notCapital : ¬('A' ≤ c ∧ c ≤ 'F') := by
    rintro ⟨from65, _⟩
    have least : 65 ≤ c.toNat := from65
    omega
  rw [digitOf?, if_neg notSmall, if_neg notCapital, digitValue?_of_isDigit digit]

theorem ofDigits?_eq {s : List Char} (digits : ∀ c ∈ s, isDigit c = true) (n : Nat) :
    ofDigits? 10 n s = some (Nat.ofDigitChars 10 s n) := by
  induction s generalizing n with
  | nil => rfl
  | cons c rest ih =>
    obtain ⟨first, others⟩ := List.forall_mem_cons.mp digits
    have code := code_of_isDigit first
    have below : c.toNat - 48 < 10 := by omega
    simp only [ofDigits?, digitOf?_of_isDigit first, if_pos below]
    rw [ih others, Nat.ofDigitChars_cons, Nat.mul_comm n]
    rfl

/-- Digits that end or go on with something else are found up to there. -/
theorem takeWhile_digits {p : Char → Bool} {s rest : List Char} (all : ∀ c ∈ s, p c = true)
    (ends : ∀ c, rest.head? = some c → p c = false) : (s ++ rest).takeWhile p = s := by
  rw [List.takeWhile_append_of_pos all]
  cases rest with
  | nil => simp
  | cons c rest => simp [ends c rfl]

theorem dropWhile_digits {p : Char → Bool} {s rest : List Char} (all : ∀ c ∈ s, p c = true)
    (ends : ∀ c, rest.head? = some c → p c = false) : (s ++ rest).dropWhile p = rest := by
  rw [List.dropWhile_append_of_pos all]
  cases rest with
  | nil => rfl
  | cons c rest => simp [ends c rfl]

/-! ## Doubles -/

/-- Digits, a point, digits, and perhaps an exponent, with a value. -/
structure Written (text : List Char) (v : ℚ) : Prop where
  form : ∃ whole fraction tail exponent, text = whole ++ '.' :: (fraction ++ tail) ∧ whole ≠ [] ∧
    (∀ c ∈ whole ++ fraction, isDigit c = true) ∧
    (tail = [] ∧ exponent = 0 ∨ tail = Layout.exponentText exponent) ∧
    Decimal.value ⟨Nat.ofDigitChars 10 (whole ++ fraction) 0, exponent - fraction.length⟩ = v

theorem value_shift (digits places : Nat) (exponent : Int) :
    Decimal.value ⟨10 ^ places * digits, exponent - places⟩ = Decimal.value ⟨digits, exponent⟩ := by
  have ten : (10 : ℚ) ^ places ≠ 0 := by positivity
  simp only [Decimal.value, Nat.cast_mul, Nat.cast_pow, Nat.cast_ofNat, zpow_sub₀ (by norm_num : (10 : ℚ) ≠ 0),
    zpow_natCast]
  field_simp

theorem ofDigitChars_digitsOf (n : Nat) : Nat.ofDigitChars 10 (Decimal.digitsOf n) 0 = n :=
  Nat.ofDigitChars_toDigits (by decide) (by decide)

theorem isDigit_of_mem_zeros {n : Nat} {c : Char} (member : c ∈ List.replicate n '0') :
    isDigit c = true := by
  rw [List.eq_of_mem_replicate member]
  rfl

/-! The layouts of a decimal, one lemma for each. In the positional ones the point stands before the
digits, among them or behind them. -/

section Layouts

variable (d : Decimal)

private theorem written_before (before : ((Decimal.digitsOf d.digits).length + d.exponent : Int) ≤ 0) :
    Written ('0' :: '.' :: (List.replicate
      (-((Decimal.digitsOf d.digits).length + d.exponent : Int)).toNat '0' ++
        Decimal.digitsOf d.digits)) d.value := by
  generalize isPlaces : (-((Decimal.digitsOf d.digits).length + d.exponent : Int)).toNat = places
  refine ⟨['0'], List.replicate places '0' ++ Decimal.digitsOf d.digits, [], 0, by simp, by simp, ?_,
    .inl ⟨rfl, rfl⟩, ?_⟩
  · intro c member
    simp only [List.mem_append, List.mem_singleton] at member
    rcases member with rfl | zero | digit
    · rfl
    · exact isDigit_of_mem_zeros zero
    · exact isDigit_of_mem_digitsOf digit
  · have value : Nat.ofDigitChars 10 (['0'] ++ (List.replicate places '0' ++
        Decimal.digitsOf d.digits)) 0 = d.digits := by
      rw [Nat.ofDigitChars_append, Nat.ofDigitChars_append, Nat.ofDigitChars_replicate_zero]
      exact ofDigitChars_digitsOf d.digits
    have exponent : (0 : Int) - (List.replicate places '0' ++ Decimal.digitsOf d.digits).length =
        d.exponent := by
      rw [List.length_append, List.length_replicate]
      omega
    rw [value, exponent]

private theorem written_among {point : Nat} (some : 0 < point)
    (among : point < (Decimal.digitsOf d.digits).length)
    (isPoint : (point : Int) = (Decimal.digitsOf d.digits).length + d.exponent) :
    Written ((Decimal.digitsOf d.digits).take point ++ '.' :: (Decimal.digitsOf d.digits).drop point)
      d.value := by
  refine ⟨(Decimal.digitsOf d.digits).take point, (Decimal.digitsOf d.digits).drop point, [], 0,
    by simp, ?_, ?_, .inl ⟨rfl, rfl⟩, ?_⟩
  · intro none
    have length := congrArg List.length none
    rw [List.length_take, List.length_nil] at length
    omega
  · rw [List.take_append_drop]
    exact fun c => isDigit_of_mem_digitsOf
  · have exponent : (0 : Int) - ((Decimal.digitsOf d.digits).drop point).length = d.exponent := by
      rw [List.length_drop]
      omega
    rw [List.take_append_drop, ofDigitChars_digitsOf, exponent]

private theorem written_behind (behind : 0 ≤ d.exponent) :
    Written (Decimal.digitsOf d.digits ++ List.replicate d.exponent.toNat '0' ++ ['.', '0'])
      d.value := by
  refine ⟨Decimal.digitsOf d.digits ++ List.replicate d.exponent.toNat '0', ['0'], [], 0, by simp, ?_, ?_,
    .inl ⟨rfl, rfl⟩, ?_⟩
  · intro none
    exact absurd (List.append_eq_nil_iff.mp none).1 Nat.toDigits_ne_nil
  · intro c member
    simp only [List.mem_append, List.mem_singleton] at member
    rcases member with (digit | zero) | rfl
    · exact isDigit_of_mem_digitsOf digit
    · exact isDigit_of_mem_zeros zero
    · rfl
  · have value : Nat.ofDigitChars 10 (Decimal.digitsOf d.digits ++
        List.replicate d.exponent.toNat '0' ++ ['0']) 0 = 10 ^ (d.exponent.toNat + 1) * d.digits := by
      rw [List.append_assoc, ← List.replicate_succ', Nat.ofDigitChars_append,
        Nat.ofDigitChars_replicate_zero, ofDigitChars_digitsOf]
    have exponent : (0 : Int) - (['0'] : List Char).length =
        d.exponent - (d.exponent.toNat + 1 : ℕ) := by
      simp only [List.length_singleton]
      omega
    rw [value, exponent, value_shift]

private theorem written_positional :
    let digits := Decimal.digitsOf d.digits
    let point : Int := digits.length + d.exponent
    Written (if point ≤ 0 then '0' :: '.' :: (List.replicate (-point).toNat '0' ++ digits)
      else if point < digits.length then digits.take point.toNat ++ '.' :: digits.drop point.toNat
      else digits ++ List.replicate d.exponent.toNat '0' ++ ['.', '0']) d.value := by
  intro digits point
  have isPoint : point = digits.length + d.exponent := rfl
  split
  · next before => exact written_before d before
  · next notBefore =>
    split
    · next among =>
      have isNat : (point.toNat : Int) = point := Int.toNat_of_nonneg (by omega)
      exact written_among d (by omega) (Int.ofNat_lt.mp (isNat.trans_lt among)) isNat
    · next => exact written_behind d (by omega)

/-- With an exponent one digit stands before the point. -/
private theorem written_exponential {digit : Char} {rest fraction : List Char}
    (isDigits : Decimal.digitsOf d.digits = digit :: rest)
    (padded : fraction = rest ∧ rest ≠ [] ∨ rest = [] ∧ fraction = ['0']) :
    Written (digit :: '.' :: (fraction ++
      Layout.exponentText ((Decimal.digitsOf d.digits).length + d.exponent - 1))) d.value := by
  have digitsOnly : ∀ c ∈ digit :: rest, isDigit c = true := by
    rw [← isDigits]
    exact fun c => isDigit_of_mem_digitsOf
  have isNumber : Nat.ofDigitChars 10 (digit :: rest) 0 = d.digits := by
    rw [← isDigits, ofDigitChars_digitsOf]
  refine ⟨[digit], fraction, _, _, rfl, by simp, ?_, .inr rfl, ?_⟩
  · rcases padded with ⟨rfl, _⟩ | ⟨rfl, rfl⟩
    · exact digitsOnly
    · intro c member
      simp only [List.mem_append, List.mem_singleton] at member
      rcases member with rfl | rfl
      · exact digitsOnly _ (List.mem_singleton_self _)
      · rfl
  · rcases padded with ⟨rfl, _⟩ | ⟨rfl, rfl⟩
    · have exponent : ((Decimal.digitsOf d.digits).length + d.exponent - 1 : Int) - fraction.length =
          d.exponent := by
        rw [isDigits, List.length_cons]
        push_cast
        omega
      rw [List.singleton_append, isNumber, exponent]
    · have value : Nat.ofDigitChars 10 ([digit] ++ ['0']) 0 = 10 ^ 1 * d.digits := by
        rw [Nat.ofDigitChars_append, isNumber]
        exact Nat.ofDigitChars_replicate_zero (n := 1)
      have exponent : ((Decimal.digitsOf d.digits).length + d.exponent - 1 : Int) -
          (['0'] : List Char).length = d.exponent - (1 : ℕ) := by
        rw [isDigits]
        simp only [List.length_singleton]
        omega
      rw [value, exponent, value_shift]

end Layouts

/-- Documents write every decimal in this form. -/
theorem written_render (d : Decimal) : Written (Layout.document.render d) d.value := by
  have positional := written_positional d
  have exponential := @written_exponential d
  unfold Layout.render
  dsimp only
  by_cases plain : Layout.document.plainFrom ≤
        ((Decimal.digitsOf d.digits).length + d.exponent - 1 : Int) ∧
      ((Decimal.digitsOf d.digits).length + d.exponent - 1 : Int) < Layout.document.plainBelow
  · rw [if_pos plain]
    exact positional
  · rw [if_neg plain]
    cases isDigits : Decimal.digitsOf d.digits with
    | nil => exact absurd isDigits Nat.toDigits_ne_nil
    | cons digit rest =>
      have form := fun fraction => @exponential digit rest fraction isDigits
      rw [isDigits] at form
      cases rest with
      | nil => exact form ['0'] (.inr ⟨rfl, rfl⟩)
      | cons second rest => exact form (second :: rest) (.inl ⟨rfl, List.cons_ne_nil _ _⟩)

/-- The characters of written numbers. -/
def isNumeral (c : Char) : Bool := isDigit c || ['.', 'e', '+', '-'].contains c

theorem isNumeral_of_isDigit {c : Char} (digit : isDigit c = true) : isNumeral c = true := by
  rw [isNumeral, digit, Bool.true_or]

theorem isNumeral_cases {c : Char} (numeral : isNumeral c = true) :
    isDigit c = true ∨ c = '.' ∨ c = 'e' ∨ c = '+' ∨ c = '-' := by
  simpa [isNumeral] using numeral

theorem isBlank_of_isNumeral {c : Char} (numeral : isNumeral c = true) : Text.isBlank c = false := by
  rcases isNumeral_cases numeral with digit | rfl | rfl | rfl | rfl
  · have code := code_of_isDigit digit
    simp only [Text.isBlank, Text.blankRanges, List.any_cons, List.any_nil, Bool.or_false,
      Bool.or_eq_false_iff, Bool.and_eq_false_iff, decide_eq_false_iff_not]
    omega
  all_goals decide

theorem toLower_of_isNumeral {c : Char} (numeral : isNumeral c = true) : c.toLower = c := by
  rcases isNumeral_cases numeral with digit | rfl | rfl | rfl | rfl
  · have code := code_of_isDigit digit
    have notCapital : ¬(c.val ≥ 'A'.val ∧ c.val ≤ 'Z'.val) := by
      rintro ⟨from65, _⟩
      have least : 65 ≤ c.toNat := from65
      omega
    exact dif_neg notCapital
  all_goals decide

theorem trimChars_eq {s : List Char} (numerals : ∀ c ∈ s, isNumeral c = true) :
    Text.trimChars s = s := by
  have keeps : ∀ t : List Char, (∀ c ∈ t, isNumeral c = true) → t.dropWhile Text.isBlank = t := by
    intro t numerals
    cases t with
    | nil => rfl
    | cons c rest =>
      rw [List.dropWhile_cons_of_neg]
      rw [isBlank_of_isNumeral (numerals c List.mem_cons_self)]
      exact Bool.false_ne_true
  rw [Text.trimChars, keeps s numerals, keeps s.reverse (by simpa using numerals), List.reverse_reverse]

theorem smallLetters_eq {s : List Char} (numerals : ∀ c ∈ s, isNumeral c = true) :
    smallLetters s = s := by
  rw [smallLetters, List.map_congr_left fun c member => toLower_of_isNumeral (numerals c member),
    List.map_id']

/-- An exponent is an `e`, a sign and digits. -/
theorem exponentText_eq (e : Int) : ∃ digits,
    Layout.exponentText e = 'e' :: (if e < 0 then '-' else '+') :: digits ∧ digits ≠ [] ∧
      (∀ c ∈ digits, isDigit c = true) ∧ Nat.ofDigitChars 10 digits 0 = e.natAbs := by
  have all : ∀ c ∈ Decimal.digitsOf e.natAbs, isDigit c = true := fun c => isDigit_of_mem_digitsOf
  refine ⟨_, rfl, ?_⟩
  split
  · refine ⟨List.cons_ne_nil _ _, List.forall_mem_cons.mpr ⟨rfl, all⟩, ?_⟩
    rw [Nat.ofDigitChars_cons]
    exact ofDigitChars_digitsOf _
  · exact ⟨Nat.toDigits_ne_nil, all, ofDigitChars_digitsOf _⟩

theorem exponentText_numerals (e : Int) : ∀ c ∈ Layout.exponentText e, isNumeral c = true := by
  obtain ⟨digits, isText, _, all, _⟩ := exponentText_eq e
  rw [isText]
  refine List.forall_mem_cons.mpr ⟨rfl, List.forall_mem_cons.mpr ⟨?_, ?_⟩⟩
  · split <;> rfl
  · exact fun c member => isNumeral_of_isDigit (all c member)

theorem exponentOf?_exponentText (e : Int) : exponentOf? (Layout.exponentText e) = some e := by
  obtain ⟨digits, isText, nonempty, all, isNumber⟩ := exponentText_eq e
  have notEmpty : digits.isEmpty = false := List.isEmpty_eq_false_iff.mpr nonempty
  have exponent (sign : Char) (isSign : sign = '-' ∨ sign = '+') :
      exponentOf? ('e' :: sign :: digits) =
        some (if isNegative (sign :: digits) then -(e.natAbs : Int) else e.natAbs) := by
    have unsigned : afterSign (sign :: digits) = digits := if_pos isSign
    simp only [exponentOf?, true_or, if_true, unsigned, notEmpty, Bool.false_eq_true, if_false,
      ofDigits?_eq all, isNumber, Option.map_some]
  rw [isText]
  by_cases negative : e < 0
  · rw [if_pos negative, exponent '-' (.inl rfl)]
    have minus : isNegative ('-' :: digits) = true := rfl
    rw [if_pos minus]
    exact congrArg some (by omega)
  · rw [if_neg negative, exponent '+' (.inr rfl)]
    have plus : isNegative ('+' :: digits) = false := rfl
    rw [plus, if_neg Bool.false_ne_true]
    exact congrArg some (by omega)

theorem isExponentEnd_exponentText (e : Int) : isExponentEnd (Layout.exponentText e) = true := by
  obtain ⟨digits, isText, nonempty, all, _⟩ := exponentText_eq e
  obtain ⟨c, rest, rfl⟩ := List.exists_cons_of_ne_nil nonempty
  rw [isText, isExponentEnd, List.all_eq_true.mpr all]
  split <;> rfl

theorem Written.numerals {text : List Char} {v : ℚ} (written : Written text v) :
    ∀ c ∈ text, isNumeral c = true := by
  obtain ⟨whole, fraction, tail, exponent, rfl, _, digits, isTail, _⟩ := written.form
  intro c member
  rcases List.mem_append.mp member with inWhole | rest
  · exact isNumeral_of_isDigit (digits c (List.mem_append_left _ inWhole))
  · rcases List.mem_cons.mp rest with rfl | rest
    · rfl
    · rcases List.mem_append.mp rest with inFraction | inTail
      · exact isNumeral_of_isDigit (digits c (List.mem_append_right _ inFraction))
      · rcases isTail with ⟨rfl, _⟩ | rfl
        · cases inTail
        · exact exponentText_numerals exponent c inTail

/-- A number that is written starts with a digit. -/
theorem Written.head {text : List Char} {v : ℚ} (written : Written text v) :
    ∃ c rest, text = c :: rest ∧ isDigit c = true := by
  obtain ⟨whole, fraction, tail, exponent, rfl, nonempty, digits, _⟩ := written.form
  cases whole with
  | nil => exact absurd rfl nonempty
  | cons c rest => exact ⟨c, _, rfl, digits c (List.mem_cons_self)⟩

/-- No special number starts with a digit. -/
theorem Written.notSpecial {text : List Char} {v : ℚ} (written : Written text v) :
    ¬(text = ['i', 'n', 'f'] ∨ text = ['i', 'n', 'f', 'i', 'n', 'i', 't', 'y']) ∧
      ¬text = ['n', 'a', 'n'] := by
  obtain ⟨first, others, rfl, digit⟩ := written.head
  have notI : first ≠ 'i' := ne_of_class digit rfl
  have notN : first ≠ 'n' := ne_of_class digit rfl
  simp [notI, notN]

/-! ## Numbers with a sign -/

/-- The sign in front of a number. -/
def signText (negative : Bool) : List Char := if negative then ['-'] else []

/-- A text that a digit starts has no sign of its own. -/
theorem noSign_of_isDigit {c : Char} (digit : isDigit c = true) : ¬(c = '-' ∨ c = '+') := by
  exact not_or.mpr ⟨ne_of_class digit rfl, ne_of_class digit rfl⟩

theorem afterSign_signText (negative : Bool) {c : Char} (digit : isDigit c = true)
    (rest : List Char) : afterSign (signText negative ++ c :: rest) = c :: rest := by
  cases negative with
  | true => rfl
  | false => exact if_neg (noSign_of_isDigit digit)

theorem isNegative_signText (negative : Bool) {c : Char} (digit : isDigit c = true)
    (rest : List Char) : isNegative (signText negative ++ c :: rest) = negative := by
  cases negative with
  | true => rfl
  | false => simpa [signText, isNegative] using fun same => noSign_of_isDigit digit (.inl same)

theorem signText_numerals (negative : Bool) {s : List Char} (numerals : ∀ c ∈ s, isNumeral c = true) :
    ∀ c ∈ signText negative ++ s, isNumeral c = true := by
  cases negative with
  | true => exact List.forall_mem_cons.mpr ⟨rfl, numerals⟩
  | false => exact numerals

/-- Numerals hold no gap between digits. -/
theorem filter_gaps {s : List Char} (numerals : ∀ c ∈ s, isNumeral c = true) :
    s.filter (· != '_') = s := by
  refine List.filter_eq_self.mpr fun c member => ?_
  rw [bne_iff_ne]
  rintro rfl
  exact absurd (numerals _ member) (by decide)

theorem contains_colon {s : List Char} (numerals : ∀ c ∈ s, isNumeral c = true) :
    s.contains ':' = false := by
  rw [Bool.eq_false_iff, Ne, List.contains_iff_mem]
  intro member
  exact absurd (numerals _ member) (by decide)

/-- What starts like a number is no word. -/
theorem ofPlain_signText (negative : Bool) {c : Char} (digit : isDigit c = true)
    (rest : List Char) : isNull (signText negative ++ c :: rest) = false ∧
      isTruthValue (signText negative ++ c :: rest) = false := by
  have other (letter : Char) (isOther : isDigit letter = false) : c ≠ letter :=
    ne_of_class digit isOther
  cases negative with
  | true => exact ⟨rfl, rfl⟩
  | false =>
    have tilde := other '~' rfl
    simp [signText, isNull, isTruthValue, truthWords, spellings, other 'n' rfl, other 'N' rfl,
      other 'y' rfl, other 'Y' rfl, other 't' rfl, other 'T' rfl, other 'f' rfl, other 'F' rfl,
      other 'o' rfl, other 'O' rfl, tilde]

/-- What starts like a number starts with no point. -/
theorem signText_ne_point (negative : Bool) {c : Char} (digit : isDigit c = true)
    {rest : List Char} (more : List Char) : signText negative ++ c :: rest ≠ '.' :: more := by
  intro same
  cases negative with
  | true => cases same
  | false => exact ne_of_class digit rfl (List.cons.inj same).1

theorem isFloat_of_point (negative : Bool) {c : Char} (digit : isDigit c = true)
    {rest fraction : List Char} (point : rest.dropWhile isDigitOrGap = '.' :: fraction) :
    isFloat (signText negative ++ c :: rest) = isExponentEnd (fraction.dropWhile isDigitOrGap) := by
  -- By this `simp` finds the case of the match.
  have noPoint : c ≠ '.' := ne_of_class digit rfl
  unfold isFloat
  split
  · next same => exact absurd same (signText_ne_point negative digit _)
  · rw [afterSign_signText negative digit]
    simp only [digit, point, Bool.true_and]

theorem isFloat_of_digits (negative : Bool) {c : Char} (digit : isDigit c = true)
    {rest : List Char} (finished : rest.dropWhile isDigitOrGap = []) :
    isFloat (signText negative ++ c :: rest) = false := by
  have noPoint : c ≠ '.' := ne_of_class digit rfl
  unfold isFloat
  split
  · next same => exact absurd same (signText_ne_point negative digit _)
  · rw [afterSign_signText negative digit]
    simp only [digit, finished, Bool.true_and]
    rfl

/-! ## Doubles, read again -/

/-- The end of a number that is written starts with a letter if it is not empty. -/
theorem tail_ends {tail : List Char} {exponent : Int}
    (isTail : tail = [] ∧ exponent = 0 ∨ tail = Layout.exponentText exponent) {p : Char → Bool}
    (noMark : p 'e' = false) : ∀ c, tail.head? = some c → p c = false := by
  rcases isTail with ⟨rfl, _⟩ | rfl
  · nofun
  · intro c isHead
    cases isHead
    exact noMark

theorem Written.isFloat {text : List Char} {v : ℚ} (written : Written text v) (negative : Bool) :
    Yaml.isFloat (signText negative ++ text) = true := by
  obtain ⟨whole, fraction, tail, exponent, rfl, nonempty, digits, isTail, _⟩ := written.form
  obtain ⟨first, others, rfl⟩ := List.exists_cons_of_ne_nil nonempty
  obtain ⟨firstDigit, digits⟩ := List.forall_mem_cons.mp digits
  have wholeDigits : ∀ c ∈ others, isDigitOrGap c = true := fun c member =>
    isDigitOrGap_of_isDigit (digits c (List.mem_append_left _ member))
  have fractionDigits : ∀ c ∈ fraction, isDigitOrGap c = true := fun c member =>
    isDigitOrGap_of_isDigit (digits c (List.mem_append_right _ member))
  have afterWhole : (others ++ '.' :: (fraction ++ tail)).dropWhile isDigitOrGap =
      '.' :: (fraction ++ tail) :=
    dropWhile_digits wholeDigits fun c isHead => by cases isHead; rfl
  have isEnd : isExponentEnd tail = true := by
    rcases isTail with ⟨rfl, _⟩ | rfl
    · rfl
    · exact isExponentEnd_exponentText exponent
  rw [List.cons_append, isFloat_of_point negative firstDigit afterWhole,
    dropWhile_digits fractionDigits (tail_ends isTail rfl), isEnd]

theorem Written.ofPlain {text : List Char} {v : ℚ} (written : Written text v) (negative : Bool) :
    Tag.ofPlain (signText negative ++ text) = .float := by
  have float := written.isFloat negative
  obtain ⟨c, rest, rfl, digit⟩ := written.head
  obtain ⟨notNull, noTruth⟩ := ofPlain_signText negative digit rest
  simp only [Tag.ofPlain, notNull, noTruth, float, Bool.false_eq_true, if_false, if_true]

/-- A number that is written is read as a decimal of the same value. -/
theorem Written.decimalOf {text : List Char} {v : ℚ} (written : Written text v) :
    ∃ d : Decimal, decimalOf text = .ok (.ofDecimal false d) ∧ d.value = v := by
  have trimmed := trimChars_eq written.numerals
  have small := smallLetters_eq written.numerals
  have unsigned : afterSign text = text := by
    obtain ⟨first, others, rfl, digit⟩ := written.head
    exact afterSign_signText false digit others
  have positive : isNegative text = false := by
    obtain ⟨first, others, rfl, digit⟩ := written.head
    exact isNegative_signText false digit others
  obtain ⟨notInfinity, notNan⟩ := written.notSpecial
  obtain ⟨whole, fraction, tail, exponent, isText, nonempty, digits, isTail, value⟩ := written.form
  have wholeDigits : ∀ c ∈ whole, isAnyDigit c = true := fun c member =>
    isAnyDigit_of_isDigit (digits c (List.mem_append_left _ member))
  have fractionDigits : ∀ c ∈ fraction, isAnyDigit c = true := fun c member =>
    isAnyDigit_of_isDigit (digits c (List.mem_append_right _ member))
  have pointEnds : ∀ c, ('.' :: (fraction ++ tail)).head? = some c → isAnyDigit c = false := by
    intro c isHead
    cases isHead
    decide
  have tailEnds := tail_ends isTail (by decide : isAnyDigit 'e' = false)
  have isExponent : exponentOf? tail = some exponent := by
    rcases isTail with ⟨rfl, rfl⟩ | rfl
    · rfl
    · exact exponentOf?_exponentText exponent
  have notEmpty : whole.isEmpty = false := List.isEmpty_eq_false_iff.mpr nonempty
  refine ⟨_, ?_, value⟩
  unfold Yaml.decimalOf
  dsimp only
  rw [trimmed, unsigned, small, positive, if_neg notInfinity, if_neg notNan, isText,
    takeWhile_digits wholeDigits pointEnds, dropWhile_digits wholeDigits pointEnds]
  simp only [takeWhile_digits fractionDigits tailEnds, dropWhile_digits fractionDigits tailEnds, notEmpty,
    Bool.false_and, if_neg Bool.false_ne_true, ofDigits?_eq digits, isExponent]

end TrainingCollar.Yaml

namespace TrainingCollar.Binary64

open Yaml

theorem documentText_finite (negative : Bool) {mantissa shift : Nat}
    (canonical : Canonical mantissa shift) :
    (finite negative mantissa shift canonical).documentText =
      signText negative ++ Layout.document.render (Decimal.shortest mantissa shift) := rfl

/-- A finite double is read back from what documents write for it. -/
theorem readFloat_documentText {x : Binary64} (isFinite : x.isFinite = true) :
    readFloat x.documentText = .ok x := by
  cases x with
  | nan => cases isFinite
  | infinite => cases isFinite
  | finite negative mantissa shift canonical =>
    have written := written_render (Decimal.shortest mantissa shift)
    obtain ⟨d, read, value⟩ := written.decimalOf
    have nearest := ofDecimal_eq false canonical value
    rw [nearest] at read
    rw [documentText_finite]
    generalize Layout.document.render (Decimal.shortest mantissa shift) = text at written read
    have numerals := signText_numerals negative written.numerals
    have noColon := contains_colon written.numerals
    obtain ⟨c, rest, rfl, digit⟩ := written.head
    have notSpecial : ∀ word, c :: rest ≠ '.' :: word := by
      intro word same
      cases same
      cases digit
    have notEmpty : (signText negative ++ c :: rest).isEmpty = false := by
      cases negative <;> rfl
    rw [readFloat, filter_gaps numerals, smallLetters_eq numerals]
    simp only [afterSign_signText negative digit, isNegative_signText negative digit, notEmpty,
      if_neg (notSpecial _), noColon, read, Bool.false_eq_true, if_false]
    cases negative <;> rfl

theorem ofPlain_documentText {x : Binary64} (isFinite : x.isFinite = true) :
    Tag.ofPlain x.documentText = .float := by
  cases x with
  | nan => cases isFinite
  | infinite => cases isFinite
  | finite negative mantissa shift canonical =>
    exact (written_render (Decimal.shortest mantissa shift)).ofPlain negative

end TrainingCollar.Binary64

namespace TrainingCollar.Yaml

/-! ## Integers -/

theorem toString_int_toList (n : Int) :
    (toString n).toList = signText (decide (n < 0)) ++ Decimal.digitsOf n.natAbs := by
  rw [Int.toString_eq_repr, Int.repr_eq_if]
  by_cases negative : n < 0
  · have positive : ¬0 ≤ n := by omega
    have same : (-n).toNat = n.natAbs := by omega
    rw [if_neg positive, decide_eq_true negative, String.toList_append, Nat.repr_eq_ofList_toDigits,
      String.toList_ofList, String.toList_ofList, same]
    rfl
  · have positive : 0 ≤ n := by omega
    have same : n.toNat = n.natAbs := by omega
    rw [if_pos positive, decide_eq_false negative, Nat.repr_eq_ofList_toDigits,
      String.toList_ofList, same]
    rfl

/-- A positive number does not start with the digit zero. -/
theorem head_digitsOf_ne_zero {n : Nat} (positive : 0 < n) :
    (Decimal.digitsOf n).head? ≠ some '0' := by
  induction n using Nat.strongRecOn with
  | ind n ih =>
    rw [Decimal.digitsOf, Nat.toDigits_eq_if (by decide)]
    split
    · rw [List.head?_singleton, Ne, Option.some_inj, Nat.digitChar_eq_zero]
      omega
    · have smaller := ih (n / 10) (by omega) (by omega)
      obtain ⟨c, rest, isDigits⟩ := List.exists_cons_of_ne_nil (Nat.toDigits_ne_nil (b := 10) (n := n / 10))
      rw [Decimal.digitsOf, isDigits] at smaller
      rw [isDigits]
      exact smaller

/-- The digits of a number other than zero. -/
theorem exists_digitsOf {n : Nat} (positive : 0 < n) : ∃ c rest, Decimal.digitsOf n = c :: rest ∧
    c ≠ '0' ∧ isDigit c = true ∧ ∀ d ∈ rest, isDigit d = true := by
  obtain ⟨c, rest, isDigits⟩ := List.exists_cons_of_ne_nil (Nat.toDigits_ne_nil (b := 10) (n := n))
  replace isDigits : Decimal.digitsOf n = c :: rest := isDigits
  have notZero := head_digitsOf_ne_zero positive
  have all : ∀ d ∈ c :: rest, isDigit d = true := by
    rw [← isDigits]
    exact fun d => isDigit_of_mem_digitsOf
  rw [isDigits] at notZero
  obtain ⟨first, others⟩ := List.forall_mem_cons.mp all
  exact ⟨c, rest, isDigits, fun same => notZero (congrArg some same), first, others⟩

/-- The value of a number without its sign. -/
theorem integerIn_digitsOf {n : Nat} (fits : n < 10 ^ Value.digitLimit) (positive : 0 < n) :
    integerIn 10 (Decimal.digitsOf n) = .ok n := by
  have few : (Decimal.digitsOf n).length ≤ Value.digitLimit :=
    (Nat.length_toDigits_le_iff (by decide) (by decide)).mpr fits
  have value : ofDigits? 10 0 (Decimal.digitsOf n) = some n := by
    rw [ofDigits?_eq fun _ => isDigit_of_mem_digitsOf, ofDigitChars_digitsOf]
  obtain ⟨c, rest, isDigits, notZero, digit, others⟩ := exists_digitsOf positive
  have all : ∀ d ∈ c :: rest, isDigit d = true := List.forall_mem_cons.mpr ⟨digit, others⟩
  rw [isDigits] at few value ⊢
  have trimmed := trimChars_eq fun d member => isNumeral_of_isDigit (all d member)
  have unsigned : afterSign (c :: rest) = c :: rest := if_neg (noSign_of_isDigit digit)
  have noMark : baseMark 10 (c :: rest) = false := by
    unfold baseMark
    split
    · rfl
    · next same => exact absurd (List.cons.inj same).1 notZero
    · rfl
  have noMinus : (c :: rest).head? ≠ some '-' := fun same =>
    noSign_of_isDigit digit (.inl (Option.some.inj same))
  have notLong : ¬(Value.digitLimit < (c :: rest).length) := by omega
  unfold integerIn
  simp only [trimmed, unsigned, noMark, value, Bool.false_eq_true, if_false, List.isEmpty_cons,
    Bool.false_or, Bool.and_eq_true, notLong, decide_false, and_false, noMinus]

theorem int_numerals (n : Int) : ∀ c ∈ (toString n).toList, isNumeral c = true := by
  rw [toString_int_toList]
  exact signText_numerals _ fun c member => isNumeral_of_isDigit (isDigit_of_mem_digitsOf member)

/-- An integer is read back from what documents write for it. -/
theorem readInteger_toString {n : Int} (fits : Value.fits n = true) :
    readInteger (toString n).toList = .ok n := by
  have filtered := filter_gaps (int_numerals n)
  rcases Nat.eq_zero_or_pos n.natAbs with zero | positive
  · obtain rfl : n = 0 := by omega
    rfl
  · have read := integerIn_digitsOf (of_decide_eq_true fits) positive
    rw [toString_int_toList] at filtered ⊢
    obtain ⟨c, rest, isDigits, notZero, digit, others⟩ := exists_digitsOf positive
    rw [isDigits] at filtered read ⊢
    have all : ∀ d ∈ c :: rest, isDigit d = true := List.forall_mem_cons.mpr ⟨digit, others⟩
    have noColon : (c :: rest).contains ':' = false := contains_colon fun d member =>
      isNumeral_of_isDigit (all d member)
    rw [readInteger, filtered]
    simp only [afterSign_signText _ digit, isNegative_signText _ digit]
    refine (congrArg (Except.map _) (?_ : _ = Except.ok (n.natAbs : Int))).trans ?_
    · split
      · next none => cases none
      · next zero => exact absurd (List.cons.inj zero).1 notZero
      · next zero => exact absurd (List.cons.inj zero).1 notZero
      · next zero => exact absurd (List.cons.inj zero).1 notZero
      · next zero => exact absurd (List.cons.inj zero).1 notZero
      · rw [noColon, if_neg Bool.false_ne_true, read]
    · refine congrArg Except.ok ?_
      show (if decide (n < 0) = true then -(n.natAbs : Int) else n.natAbs) = n
      by_cases negative : n < 0
      · rw [if_pos (decide_eq_true negative)]
        omega
      · rw [if_neg (Bool.eq_false_iff.mp (decide_eq_false negative))]
        omega

theorem isInteger_signText (negative : Bool) {c : Char} (digit : isDigit c = true) (notZero : c ≠ '0')
    {rest : List Char} (others : ∀ d ∈ rest, isDigitOrGap d = true) :
    isInteger (signText negative ++ c :: rest) = true := by
  have fromOne : '1' ≤ c ∧ c ≤ '9' := by
    have code := code_of_isDigit digit
    have : c.toNat ≠ 48 := fun same => notZero (Char.toNat_inj.mp same)
    exact ⟨show 49 ≤ c.toNat by omega, code.2⟩
  rw [isInteger, afterSign_signText negative digit]
  split
  · rfl
  · next zero => exact absurd (List.cons.inj zero).1 notZero
  · next zero => exact absurd (List.cons.inj zero).1 notZero
  · next zero => exact absurd (List.cons.inj zero).1 notZero
  · next same =>
    cases same
    rw [decide_eq_true fromOne.1, decide_eq_true fromOne.2, List.all_eq_true.mpr others]
    rfl
  · next none => cases none

theorem ofPlain_toString (n : Int) : Tag.ofPlain (toString n).toList = .int := by
  rcases Nat.eq_zero_or_pos n.natAbs with zero | positive
  · obtain rfl : n = 0 := by omega
    decide
  · rw [toString_int_toList]
    obtain ⟨c, rest, isDigits, notZero, digit, others⟩ := exists_digitsOf positive
    have digitsOrGaps : ∀ d ∈ rest, isDigitOrGap d = true := fun d member =>
      isDigitOrGap_of_isDigit (others d member)
    obtain ⟨notNull, noTruth⟩ := ofPlain_signText (decide (n < 0)) digit rest
    have notFloat := isFloat_of_digits (decide (n < 0)) digit (List.dropWhile_eq_nil_iff.mpr digitsOrGaps)
    have int := isInteger_signText (decide (n < 0)) digit notZero digitsOrGaps
    rw [isDigits]
    simp only [Tag.ofPlain, notNull, noTruth, notFloat, int, Bool.false_eq_true, if_false, if_true]

/-- An integer that a double can come close to is not too long for a document. -/
theorem fits_of_ofInt? {n : Int} (near : (Binary64.ofInt? n).isSome = true) :
    Value.fits n = true := by
  refine decide_eq_true (Nat.lt_of_lt_of_le (Binary64.natAbs_lt_of_ofInt? near) ?_)
  calc 2 ^ 1024 ≤ 10 ^ 1024 := Nat.pow_le_pow_left (by decide) 1024
    _ ≤ Nat.pow 10 Value.digitLimit := Nat.pow_le_pow_right (by decide) (by decide)

end TrainingCollar.Yaml
