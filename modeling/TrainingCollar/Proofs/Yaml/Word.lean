import TrainingCollar.Proofs.Number.Notation

/-! # Words

A word is a text of letters, digits and a few signs that starts like a name or a number. Nothing in it
has a meaning of its own in a document, so a word is written as it is: `scalarText_word`. Names of
fields and choices are words, and so are numbers.
-/

namespace TrainingCollar.Yaml

/-- A letter or a digit. -/
def isLetterOrDigit (c : Char) : Bool :=
  isDigit c || ('a' ≤ c && c ≤ 'z') || ('A' ≤ c && c ≤ 'Z')

/-- A character of a word. -/
def isWordChar (c : Char) : Bool := isLetterOrDigit c || ['_', '-', '+', '.'].contains c

/-- Whether a text starts with a letter or a digit, perhaps after a minus sign. -/
def startsWord : List Char → Bool
  | '-' :: c :: _ => isLetterOrDigit c
  | c :: _ => isLetterOrDigit c
  | [] => false

/-- A text of such characters that starts so. -/
def isWord (text : List Char) : Bool := startsWord text && text.all isWordChar

variable {c d : Char} {text rest : List Char}

/-! ## Characters of words -/

theorem isWordChar_of_isLetterOrDigit (alnum : isLetterOrDigit c = true) : isWordChar c = true := by
  rw [isWordChar, alnum, Bool.true_or]

/-- A character of a class is not among others that are not. -/
theorem contains_of_class {p : Char → Bool} (holds : p c = true) {marks : List Char}
    (others : marks.all (fun mark => !p mark) = true) : marks.contains c = false := by
  rw [Bool.eq_false_iff, Ne, List.contains_iff_mem]
  intro member
  have other := List.all_eq_true.mp others c member
  rw [holds] at other
  cases other

theorem ne_of_isWordChar (word : isWordChar c = true) (other : isWordChar d = false) : c ≠ d :=
  ne_of_class word other

/-- The codes of the characters of words are those of visible characters. -/
theorem code_of_isWordChar (word : isWordChar c = true) : 32 ≤ c.toNat ∧ c.toNat ≤ 126 := by
  simp only [isWordChar, isLetterOrDigit, isDigit, Bool.or_eq_true, Bool.and_eq_true,
    decide_eq_true_eq, List.contains_iff_mem, List.mem_cons, List.not_mem_nil, or_false] at word
  rcases word with ((⟨low, high⟩ | ⟨low, high⟩) | ⟨low, high⟩) | rfl | rfl | rfl | rfl
  · exact ⟨Nat.le_trans (by decide) (show 48 ≤ c.toNat from low), Nat.le_trans high (by decide)⟩
  · exact ⟨Nat.le_trans (by decide) (show 97 ≤ c.toNat from low), Nat.le_trans high (by decide)⟩
  · exact ⟨Nat.le_trans (by decide) (show 65 ≤ c.toNat from low), Nat.le_trans high (by decide)⟩
  all_goals decide

theorem isPrintable_of_isWordChar (word : isWordChar c = true) : isPrintable c = true := by
  have code := code_of_isWordChar word
  rw [isPrintable, Bool.and_eq_true, decide_eq_true_eq, decide_eq_true_eq]
  exact code

theorem isReadable_of_isPrintable (printable : isPrintable c = true) : isReadable c = true := by
  have printable : (decide (' ' ≤ c) && decide (c ≤ '~')) = true := printable
  simp only [isReadable, printable, Bool.or_true, Bool.true_or]

theorem isBreak_of_isWordChar (word : isWordChar c = true) : isBreak c = false := by
  simp only [isBreak, Bool.or_eq_false_iff, beq_eq_false_iff_ne]
  exact ⟨⟨⟨ne_of_isWordChar word rfl, ne_of_isWordChar word rfl⟩, ne_of_isWordChar word rfl⟩,
    ne_of_isWordChar word rfl⟩

theorem isGap_of_isWordChar (word : isWordChar c = true) : isGap c = false := by
  simp only [isGap, isBreak_of_isWordChar word, Bool.or_false, Bool.or_eq_false_iff,
    beq_eq_false_iff_ne]
  exact ⟨ne_of_isWordChar word rfl, ne_of_isWordChar word rfl⟩

/-! ## Words in documents -/

theorem startsWord_cases (starts : startsWord text = true) :
    (∃ c rest, text = c :: rest ∧ isLetterOrDigit c = true) ∨
      ∃ c rest, text = '-' :: c :: rest ∧ isLetterOrDigit c = true := by
  unfold startsWord at starts
  split at starts
  · exact .inr ⟨_, _, rfl, starts⟩
  · exact .inl ⟨_, _, rfl, starts⟩
  · cases starts

theorem isWord_iff : isWord text = true ↔
    startsWord text = true ∧ ∀ c ∈ text, isWordChar c = true := by
  rw [isWord, Bool.and_eq_true, List.all_eq_true]

theorem ne_nil_of_isWord (word : isWord text = true) : text ≠ [] := by
  rintro rfl
  cases word

theorem isMultiline_of_isWord (word : isWord text = true) : isMultiline text = false := by
  rw [isMultiline, List.any_eq_false]
  intro c member
  rw [isBreak_of_isWordChar ((isWord_iff.mp word).2 c member)]
  exact Bool.false_ne_true

theorem isIndicator_of_isLetterOrDigit (alnum : isLetterOrDigit c = true) :
    Lexer.isIndicator c = false :=
  contains_of_class alnum (by decide)

theorem endsWord_of_isLetterOrDigit (alnum : isLetterOrDigit c = true) (rest : List Char) :
    endsWord (c :: rest) = false :=
  beq_eq_false_iff_ne.mpr (ne_of_class alnum rfl)

theorem startsMarked_of_isWord (inFlow : Bool) (word : isWord text = true) :
    startsMarked inFlow text = false := by
  rcases startsWord_cases (isWord_iff.mp word).1 with ⟨c, rest, rfl, alnum⟩ | ⟨c, rest, rfl, alnum⟩
  · have noMark : ¬(c = '?' ∨ c = ':') := by
      rintro (rfl | rfl) <;> cases alnum
    unfold startsMarked
    split
    · next same =>
      cases same
      cases alnum
    · next same =>
      cases same
      cases alnum
    · next same =>
      cases same
      rw [if_neg noMark, if_neg (ne_of_class alnum rfl), isIndicator_of_isLetterOrDigit alnum]
    · rfl
  · unfold startsMarked
    split
    · next same =>
      cases same
      cases alnum
    · next same => cases same
    · next same =>
      cases same
      exact endsWord_of_isLetterOrDigit alnum rest
    · rfl

theorem holdsMark_of_isWordChar (inFlow : Bool) (before : Char)
    (word : ∀ c ∈ rest, isWordChar c = true) : holdsMark inFlow before rest = false := by
  induction rest generalizing before with
  | nil => rfl
  | cons c rest ih =>
    obtain ⟨first, others⟩ := List.forall_mem_cons.mp word
    rw [holdsMark, ih c others, contains_of_class first (by decide),
      beq_eq_false_iff_ne.mpr (ne_of_isWordChar first (d := ':') rfl),
      beq_eq_false_iff_ne.mpr (ne_of_isWordChar first (d := '#') rfl)]
    simp

/-- A word needs no quotes. -/
theorem canBePlain_of_isWord (inFlow : Bool) (word : isWord text = true) :
    canBePlain inFlow text = true := by
  obtain ⟨starts, chars⟩ := isWord_iff.mp word
  have printable : text.all isPrintable = true :=
    List.all_eq_true.mpr fun c member => isPrintable_of_isWordChar (chars c member)
  have noSpace : ∀ c ∈ text, c ≠ ' ' := fun c member => ne_of_isWordChar (chars c member) rfl
  have marked := startsMarked_of_isWord inFlow word
  obtain ⟨first, rest, rfl⟩ := List.exists_cons_of_ne_nil (ne_nil_of_isWord word)
  have lastSpace : (first :: rest).getLast? ≠ some ' ' := fun last =>
    noSpace ' ' (List.mem_of_getLast? last) rfl
  rw [canBePlain, printable, marked,
    holdsMark_of_isWordChar inFlow first (List.forall_mem_cons.mp chars).2,
    bne_iff_ne.mpr (noSpace first List.mem_cons_self), bne_iff_ne.mpr lastSpace]
  rfl

/-- A word is written plain under the tag of its form. -/
theorem styleOf_word (inFlow isKey : Bool) (word : isWord text = true) :
    Style.of inFlow isKey (Tag.ofPlain text) text = .plain := by
  have notEmpty : text.isEmpty = false := List.isEmpty_eq_false_iff.mpr (ne_nil_of_isWord word)
  refine if_pos ⟨rfl, ?_, canBePlain_of_isWord inFlow word⟩
  rw [notEmpty, isMultiline_of_isWord word, Bool.or_false, Bool.and_false, Bool.not_false]

theorem plainText_of_isWordChar (indent : Nat) (split afterSpace : Bool) (column : Nat)
    (word : ∀ c ∈ text, isWordChar c = true) :
    plainText indent split afterSpace column text = text := by
  induction text generalizing afterSpace column with
  | nil => rfl
  | cons c rest ih =>
    obtain ⟨first, others⟩ := List.forall_mem_cons.mp word
    rw [plainText, if_neg (ne_of_isWordChar first rfl), ih _ _ others]

/-- A word is written as it is. -/
theorem scalarText_word (indent column : Nat) (inFlow isKey : Bool) (word : isWord text = true) :
    scalarText indent column inFlow isKey (Tag.ofPlain text) text = text := by
  unfold scalarText
  rw [styleOf_word inFlow isKey word]
  exact plainText_of_isWordChar _ _ _ _ (isWord_iff.mp word).2

/-! ## Numbers are words -/

theorem isLetterOrDigit_of_isDigit (digit : isDigit c = true) : isLetterOrDigit c = true := by
  rw [isLetterOrDigit, digit, Bool.true_or, Bool.true_or]

theorem isWordChar_of_isNumeral (numeral : isNumeral c = true) : isWordChar c = true := by
  rcases isNumeral_cases numeral with digit | rfl | rfl | rfl | rfl
  · exact isWordChar_of_isLetterOrDigit (isLetterOrDigit_of_isDigit digit)
  all_goals rfl

theorem isWord_signText (negative : Bool) (digit : isDigit c = true)
    (numerals : ∀ d ∈ c :: rest, isNumeral d = true) :
    isWord (signText negative ++ c :: rest) = true := by
  refine isWord_iff.mpr ⟨?_, fun d member =>
    isWordChar_of_isNumeral (signText_numerals negative numerals d member)⟩
  cases negative with
  | true => exact isLetterOrDigit_of_isDigit digit
  | false =>
    unfold startsWord
    split
    · next same =>
      cases same
      cases digit
    · next same =>
      cases same
      exact isLetterOrDigit_of_isDigit digit
    · next same => cases same

theorem isWord_documentText {x : Binary64} (isFinite : x.isFinite = true) :
    isWord x.documentText = true := by
  cases x with
  | nan => cases isFinite
  | infinite => cases isFinite
  | finite negative mantissa shift canonical =>
    have written := written_render (Decimal.shortest mantissa shift)
    rw [Binary64.documentText_finite]
    generalize Layout.document.render (Decimal.shortest mantissa shift) = text at written ⊢
    have numerals := written.numerals
    obtain ⟨c, rest, rfl, digit⟩ := written.head
    exact isWord_signText negative digit numerals

theorem isWord_toString (n : Int) : isWord (toString n).toList = true := by
  have all : ∀ c ∈ Decimal.digitsOf n.natAbs, isNumeral c = true := fun c member =>
    isNumeral_of_isDigit (isDigit_of_mem_digitsOf member)
  rw [toString_int_toList]
  obtain ⟨c, rest, isDigits⟩ :=
    List.exists_cons_of_ne_nil (Nat.toDigits_ne_nil (b := 10) (n := n.natAbs))
  replace isDigits : Decimal.digitsOf n.natAbs = c :: rest := isDigits
  have digit : isDigit c = true := isDigit_of_mem_digitsOf (isDigits ▸ List.mem_cons_self)
  rw [isDigits] at all ⊢
  exact isWord_signText _ digit all

end TrainingCollar.Yaml
