import TrainingCollar.Fault
import TrainingCollar.Text.Blank
import TrainingCollar.Text.Digit

/-! # Tags and scalars

A scalar of a document is a text with a tag. `Tag.ofPlain` says which tag a plain scalar has by its
form alone: `5` is an integer, `0.5` a number, `yes` a truth value, `2001-12-14` a date. The functions
`readInteger`, `readFloat` and so on give the value of a text under a tag, which a document may also
set itself on a text of any form.
-/

namespace TrainingCollar.Yaml

/-- What a node of a document is meant to be. -/
inductive Tag where
  | null
  | bool
  | int
  | float
  | str
  | binary
  | timestamp
  | seq
  | map
  | set
  | omap
  | pairs
  | merge
  | value
  | other (uri : String)
deriving DecidableEq, Repr

/-- What the uniform names of the tags start with. -/
def coreUri : String := "tag:yaml.org,2002:"

/-- The tags with a short name. -/
def coreTags : List (String × Tag) :=
  [("null", .null), ("bool", .bool), ("int", .int), ("float", .float), ("str", .str),
    ("binary", .binary), ("timestamp", .timestamp), ("seq", .seq), ("map", .map), ("set", .set),
    ("omap", .omap), ("pairs", .pairs), ("merge", .merge), ("value", .value)]

/-- The tag with a uniform name. -/
def Tag.ofUri (uri : String) : Tag :=
  match coreTags.find? fun (name, _) => coreUri ++ name == uri with
  | some (_, tag) => tag
  | none => .other uri

/-! ## Forms of plain scalars -/

/-- A digit below ten. -/
def isDigit (c : Char) : Bool := '0' ≤ c && c ≤ '9'

/-- A digit or an underscore between digits. -/
def isDigitOrGap (c : Char) : Bool := isDigit c || c == '_'

/-- A digit of a base up to sixteen, in either letter case. -/
def isHexDigit (c : Char) : Bool := isDigit c || ('a' ≤ c && c ≤ 'f') || ('A' ≤ c && c ≤ 'F')

/-- The text without a sign in front. -/
def afterSign : List Char → List Char
  | c :: rest => if c = '-' ∨ c = '+' then rest else c :: rest
  | [] => []

/-- Whether the text is one or more sixtieths, each a colon and a number below sixty, followed by
something. -/
def sixtieths (next : List Char → Bool) : List Char → Bool
  | ':' :: a :: b :: rest =>
    if isDigit b then '0' ≤ a && a ≤ '5' && (next rest || sixtieths next rest)
    else isDigit a && (next (b :: rest) || sixtieths next (b :: rest))
  | [':', a] => isDigit a && next []
  | _ => false

/-- An integer in base two, eight, ten, sixteen or sixty. -/
def isInteger (s : List Char) : Bool :=
  match afterSign s with
  | ['0'] => true
  | '0' :: 'b' :: c :: rest => (c :: rest).all fun c => c == '0' || c == '1' || c == '_'
  | '0' :: 'x' :: c :: rest => (c :: rest).all fun c => isHexDigit c || c == '_'
  | '0' :: rest => rest.all fun c => ('0' ≤ c && c ≤ '7') || c == '_'
  | c :: rest =>
    '1' ≤ c && c ≤ '9' &&
      (rest.all isDigitOrGap || sixtieths (·.isEmpty) (rest.dropWhile isDigitOrGap))
  | [] => false

/-- Nothing, or an exponent with a sign. -/
def isExponentEnd : List Char → Bool
  | [] => true
  | e :: sign :: c :: rest =>
    (e == 'e' || e == 'E') && (sign == '-' || sign == '+') && (c :: rest).all isDigit
  | _ => false

/-- A number with a point, an infinity or no number. -/
def isFloat (s : List Char) : Bool :=
  match s with
  | '.' :: c :: rest =>
    (isDigit c && isExponentEnd (rest.dropWhile isDigitOrGap)) ||
      [['n', 'a', 'n'], ['N', 'a', 'N'], ['N', 'A', 'N']].contains (c :: rest) ||
      isInfinity (c :: rest)
  | _ =>
    match afterSign s with
    | '.' :: rest => isInfinity rest
    | c :: rest =>
      isDigit c &&
        match rest.dropWhile isDigitOrGap with
        | '.' :: fraction => isExponentEnd (fraction.dropWhile isDigitOrGap)
        | more => sixtieths afterSixtieths more
    | [] => false
where
  /-- The three spellings of infinity. -/
  isInfinity (s : List Char) : Bool :=
    [['i', 'n', 'f'], ['I', 'n', 'f'], ['I', 'N', 'F']].contains s
  /-- A point with digits. -/
  afterSixtieths : List Char → Bool
    | '.' :: fraction => fraction.all isDigitOrGap
    | _ => false

/-- The three letter cases of a word: small, with a capital, and in capitals. -/
def spellings (word : List Char) : List (List Char) :=
  match word with
  | [] => [[]]
  | c :: rest => [c :: rest, c.toUpper :: rest, (c :: rest).map Char.toUpper]

/-- The words for truth values, in small letters. -/
def truthWords : List (List Char × Bool) :=
  [(['y', 'e', 's'], true), (['n', 'o'], false), (['t', 'r', 'u', 'e'], true),
    (['f', 'a', 'l', 's', 'e'], false), (['o', 'n'], true), (['o', 'f', 'f'], false)]

/-- A word for a truth value. -/
def isTruthValue (s : List Char) : Bool := truthWords.any fun (word, _) => (spellings word).contains s

/-- Nothing, a tilde, or the word for it. -/
def isNull (s : List Char) : Bool :=
  s == [] || s == ['~'] || (spellings ['n', 'u', 'l', 'l']).contains s

/-- The parts of a date or a moment as written. -/
structure Timestamp where
  year : List Char
  month : List Char
  day : List Char
  /-- Hour, minute, second, fraction and zone. -/
  time : Option (List Char × List Char × List Char × List Char × Option Int)

/-- The digits that a text starts with, and the rest. -/
def spanDigits (s : List Char) : List Char × List Char := (s.takeWhile isDigit, s.dropWhile isDigit)

/-- The zone at the end of a moment: nothing, `Z`, or a distance from universal time. -/
def zoneOf? (s : List Char) : Option (Option Int) :=
  match s with
  | [] => some none
  | _ =>
    match s.dropWhile fun c => c == ' ' || c == '\t' with
    | ['Z'] => some (some 0)
    | sign :: rest =>
      if sign = '-' ∨ sign = '+' then
        let (hours, rest) := spanDigits rest
        let minutes? : Option (List Char) := match rest with
          | [] => some []
          | [':', a, b] => if isDigit a && isDigit b then some [a, b] else none
          | _ => none
        if hours.length = 1 ∨ hours.length = 2 then
          minutes?.map fun minutes =>
            let distance : Int := Nat.ofDigitChars 10 hours 0 * 60 + Nat.ofDigitChars 10 minutes 0
            some (if sign = '-' then -distance else distance)
        else none
      else none
    | [] => none

/-- The time after a date: its parts and the zone. -/
def timeOf? (s : List Char) : Option (List Char × List Char × List Char × List Char × Option Int) :=
  let afterGap : Option (List Char) := match s with
    | c :: rest =>
      if c = 'T' ∨ c = 't' then some rest
      else if c = ' ' ∨ c = '\t' then some (rest.dropWhile fun c => c == ' ' || c == '\t')
      else none
    | [] => none
  match afterGap.map spanDigits with
  | some (hour, ':' :: a :: b :: ':' :: c :: d :: rest) =>
    if (hour.length = 1 ∨ hour.length = 2) ∧ [a, b, c, d].all isDigit then
      let (fraction, rest) := match rest with
        | '.' :: rest => spanDigits rest
        | rest => ([], rest)
      (zoneOf? rest).map fun zone => (hour, [a, b], [c, d], fraction, zone)
    else none
  | _ => none

/-- The parts of a text that has the form of a date or a moment. -/
def timestampOf? (s : List Char) : Option Timestamp :=
  let (year, rest) := spanDigits s
  match rest with
  | '-' :: rest =>
    let (month, rest) := spanDigits rest
    match rest with
    | '-' :: rest =>
      let (day, rest) := spanDigits rest
      if year.length = 4 ∧ (month.length = 1 ∨ month.length = 2) ∧
          (day.length = 1 ∨ day.length = 2) then
        match rest with
        | [] => some ⟨year, month, day, none⟩
        | _ => (timeOf? rest).map fun time => ⟨year, month, day, some time⟩
      else none
    | _ => none
  | _ => none

/-- A date with two digits for month and day, or a moment. -/
def isTimestamp (s : List Char) : Bool :=
  match timestampOf? s with
  | some ⟨_, month, day, none⟩ => month.length == 2 && day.length == 2
  | some _ => true
  | none => false

/-- The tag of a plain scalar. -/
def Tag.ofPlain (s : List Char) : Tag :=
  if isNull s then .null
  else if isTruthValue s then .bool
  else if isFloat s then .float
  else if isInteger s then .int
  else if isTimestamp s then .timestamp
  else if s = ['<', '<'] then .merge
  else if s = ['='] then .value
  else .str

/-- The text without the line feed at its end. -/
def beforeLineEnd (s : List Char) : List Char := if s.getLast? = some '\n' then s.dropLast else s

/-- The tag that any text has by its form, of which a line feed at the end of the text is no part. Nothing
but a line feed is a text, though. -/
def Tag.ofForm (s : List Char) : Tag := if s = ['\n'] then .str else .ofPlain (beforeLineEnd s)

/-! ## Values of scalars -/

/-- The value of a digit of any script, or of a letter from `a` to `f`. -/
def digitOf? (c : Char) : Option Nat :=
  if 'a' ≤ c ∧ c ≤ 'f' then some (c.toNat - 'a'.toNat + 10)
  else if 'A' ≤ c ∧ c ≤ 'F' then some (c.toNat - 'A'.toNat + 10)
  else Text.digitValue? c

/-- The number that digits of a base denote. -/
def ofDigits? (base : Nat) : Nat → List Char → Option Nat
  | n, [] => some n
  | n, c :: rest =>
    match digitOf? c with
    | some digit => if digit < base then ofDigits? base (n * base + digit) rest else none
    | none => none

/-- Whether the text starts with the mark of a base, such as `0x`. -/
def baseMark (base : Nat) : List Char → Bool
  | ['0', _] => false
  | '0' :: c :: _ =>
    base == 16 && (c == 'x' || c == 'X') || base == 8 && (c == 'o' || c == 'O') ||
      base == 2 && (c == 'b' || c == 'B')
  | _ => false

/-- An integer in a base, with blanks around it, a sign and the mark of the base allowed. An integer in
base ten must not have too many digits. -/
def integerIn (base : Nat) (s : List Char) : Except Fault Int :=
  let trimmed := Text.trimChars s
  let unsigned := afterSign trimmed
  let digits := if baseMark base unsigned then unsigned.drop 2 else unsigned
  if digits.isEmpty || base == 10 && Value.digitLimit < digits.length then .error .badValue
  else
    match ofDigits? base 0 digits with
    | some n => .ok (if trimmed.head? = some '-' then -(n : Int) else n)
    | none => .error .badValue

/-- The pieces of a text between colons. -/
def splitColons : List Char → List (List Char)
  | [] => [[]]
  | c :: rest =>
    if c = ':' then [] :: splitColons rest
    else
      match splitColons rest with
      | [] => [[c]]
      | piece :: pieces => (c :: piece) :: pieces

/-- The number with these places in base sixty, most significant first. -/
def inSixties (places : List Int) : Int := places.foldl (fun n place => n * 60 + place) 0

/-- Applies a reader to each text. -/
def readEach {α : Type} (read : List Char → Except Fault α) : List (List Char) → Except Fault (List α)
  | [] => .ok []
  | s :: rest => do
    let first ← read s
    let others ← readEach read rest
    return first :: others

/-- Whether the text starts with a minus sign. -/
def isNegative (s : List Char) : Bool := s.head? == some '-'

/-- The value of a text as an integer. -/
def readInteger (s : List Char) : Except Fault Int :=
  let digits := s.filter (· != '_')
  let unsigned := afterSign digits
  let magnitude : Except Fault Int := match unsigned with
    | [] => .error (.badIndex (.missingItem (some "string")))
    | ['0'] => .ok 0
    | '0' :: 'b' :: rest => integerIn 2 rest
    | '0' :: 'x' :: rest => integerIn 16 rest
    | '0' :: rest => integerIn 8 ('0' :: rest)
    | _ =>
      if unsigned.contains ':' then (readEach (integerIn 10) (splitColons unsigned)).map inSixties
      else integerIn 10 unsigned
  magnitude.map fun n => if isNegative digits then -n else n

/-- A word in small letters. -/
def smallLetters (s : List Char) : List Char := s.map Char.toLower

/-- The exponent that a text denotes: nothing, or an `e`, a sign and digits. -/
def exponentOf? : List Char → Option Int
  | [] => some 0
  | e :: rest =>
    if e = 'e' ∨ e = 'E' then
      let digits := afterSign rest
      if digits.isEmpty then none
      else (ofDigits? 10 0 digits).map fun (n : Nat) => if isNegative rest then -(n : Int) else n
    else none

/-- Whether a character is a decimal digit of any script. -/
def isAnyDigit (c : Char) : Bool := (Text.digitValue? c).isSome

/-- A number in decimal notation, with blanks around it allowed. -/
def decimalOf (s : List Char) : Except Fault Binary64 :=
  let trimmed := Text.trimChars s
  let negative := isNegative trimmed
  let unsigned := afterSign trimmed
  let word := smallLetters unsigned
  if word = ['i', 'n', 'f'] ∨ word = ['i', 'n', 'f', 'i', 'n', 'i', 't', 'y'] then
    .ok (.infinite negative)
  else if word = ['n', 'a', 'n'] then .ok .nan
  else
    let whole := unsigned.takeWhile isAnyDigit
    let rest := unsigned.dropWhile isAnyDigit
    let (fraction, rest) := match rest with
      | '.' :: rest => (rest.takeWhile isAnyDigit, rest.dropWhile isAnyDigit)
      | rest => ([], rest)
    if whole.isEmpty && fraction.isEmpty then .error .badValue
    else
      match ofDigits? 10 0 (whole ++ fraction), exponentOf? rest with
      | some digits, some exponent =>
        .ok (.ofDecimal negative ⟨digits, exponent - fraction.length⟩)
      | _, _ => .error .badValue

/-- The sum of doubles weighted by powers of sixty, the first with weight one. -/
def addSixties (sum : Binary64) (weight : Nat) : List Binary64 → Except Fault Binary64
  | [] => .ok sum
  | x :: rest =>
    match Binary64.ofInt? weight with
    | some factor => addSixties (sum.add (x.multiply factor)) (weight * 60) rest
    | none => .error .tooLarge

/-- The value of a text as a double. -/
def readFloat (s : List Char) : Except Fault Binary64 :=
  let digits := smallLetters (s.filter (· != '_'))
  let unsigned := afterSign digits
  let magnitude : Except Fault Binary64 :=
    if digits.isEmpty then .error (.badIndex (.missingItem (some "string")))
    else if unsigned = ['.', 'i', 'n', 'f'] then .ok (.infinite false)
    else if unsigned = ['.', 'n', 'a', 'n'] then .ok .nan
    else if unsigned.contains ':' then do
      let places ← readEach decimalOf (splitColons unsigned)
      addSixties (.zero false) 1 places.reverse
    else decimalOf unsigned
  magnitude.map fun x => if isNegative digits then x.negate else x

/-- The value of a text as a truth value. -/
def readBool (s : List Char) : Except Fault Bool :=
  match truthWords.find? fun (word, _) => word == smallLetters s with
  | some (_, b) => .ok b
  | none => .error .noKey

/-- The first six digits of a fraction of a second, as microseconds. -/
def microseconds (fraction : List Char) : Nat :=
  let digits := fraction.take 6
  Nat.ofDigitChars 10 (digits ++ List.replicate (6 - digits.length) '0') 0

/-- The value of a text as a date or a moment. -/
def readTimestamp (s : List Char) : Except Fault Value :=
  match timestampOf? (beforeLineEnd s) with
  | none => .error .noPart
  | some t =>
    let number (digits : List Char) : Nat := Nat.ofDigitChars 10 digits 0
    let date : Date := ⟨number t.year, number t.month, number t.day⟩
    match t.time with
    | none => if date.exists? then .ok (.date date) else .error .badValue
    | some (hour, minute, second, fraction, zone) =>
      let moment : Moment :=
        ⟨date, number hour, number minute, number second, microseconds fraction, zone⟩
      if moment.exists? then .ok (.moment moment) else .error .badValue

/-- The value of a character in base sixty-four. -/
def base64Digit? (c : Char) : Option Nat :=
  if 'A' ≤ c ∧ c ≤ 'Z' then some (c.toNat - 'A'.toNat)
  else if 'a' ≤ c ∧ c ≤ 'z' then some (c.toNat - 'a'.toNat + 26)
  else if '0' ≤ c ∧ c ≤ '9' then some (c.toNat - '0'.toNat + 52)
  else if c = '+' then some 62
  else if c = '/' then some 63
  else none

/-- Decodes base sixty-four, given how many characters of a group of four have been read, how many
padding characters follow them, and the bits they leave over. Other characters are skipped; padding
that completes a group ends the data. -/
def base64 (position pads bits : Nat) : List Char → Option (List UInt8)
  | [] => if position = 0 then some [] else none
  | c :: rest =>
    if c = '=' then
      if 2 ≤ position ∧ 4 ≤ position + pads + 1 then some []
      else base64 position (if 2 ≤ position then pads + 1 else pads) bits rest
    else
      match base64Digit? c with
      | none => base64 position pads bits rest
      | some digit =>
        match position with
        | 0 => base64 1 0 digit rest
        | 1 => (base64 2 0 (digit % 16) rest).map (UInt8.ofNat (bits * 4 + digit / 16) :: ·)
        | 2 => (base64 3 0 (digit % 4) rest).map (UInt8.ofNat (bits * 16 + digit / 4) :: ·)
        | _ => (base64 0 0 0 rest).map (UInt8.ofNat (bits * 64 + digit) :: ·)

/-- The value of a text as bytes in base sixty-four. -/
def readBinary (s : List Char) : Except Fault (List UInt8) :=
  if s.all fun c => c.toNat < 128 then
    match base64 0 0 0 s with
    | some content => .ok content
    | none => .error .malformed
  else .error .malformed

/-- The value of a scalar. Tags of collections and unknown tags give no scalar. -/
def readScalar (tag : Tag) (s : List Char) : Except Fault Value :=
  match tag with
  | .null => .ok .null
  | .bool => (readBool s).map .bool
  | .int => (readInteger s).map .int
  | .float => (readFloat s).map .float
  | .str => .ok (.text (String.ofList s))
  | .binary => (readBinary s).map .bytes
  | .timestamp => readTimestamp s
  | _ => .error .malformed

end TrainingCollar.Yaml
