import TrainingCollar.Text.Quoted
import TrainingCollar.Yaml.Lexer

/-! # Styles of scalars

A scalar is written plain if its form alone gives it its tag and nothing in it could be taken for
something else; if not, in single quotes; and if it has characters that cannot stand there either, in
double quotes. Long texts are broken at spaces once a line is wider than `lineWidth`.
-/

namespace TrainingCollar.Yaml

/-- The width after which a line is broken where it can be. -/
def lineWidth : Nat := 80

/-- A line break and the indentation of the next line. -/
def newLine (indent : Nat) : List Char := '\n' :: List.replicate indent ' '

/-- The column after a text that starts at a column. -/
def columnAfter (column : Nat) (text : List Char) : Nat :=
  text.foldl (fun column c => if c = '\n' then 0 else column + 1) column

/-! ## Which style a text admits -/

/-- A character that can be written as it is. -/
def isPrintable (c : Char) : Bool := ' ' ≤ c && c ≤ '~'

/-- Whether the text is at its end or at a space. -/
def endsWord : List Char → Bool
  | [] => true
  | c :: _ => c == ' '

/-- Whether the start of a text has a meaning in a document. -/
def startsMarked (inFlow : Bool) : List Char → Bool
  | '-' :: '-' :: '-' :: _ | '.' :: '.' :: '.' :: _ => true
  | c :: rest =>
    if c = '?' ∨ c = ':' then inFlow || endsWord rest
    else if c = '-' then endsWord rest
    else Lexer.isIndicator c
  | [] => false

/-- Whether a character after the first has a meaning in a document, given the character before. -/
def holdsMark (inFlow : Bool) (before : Char) : List Char → Bool
  | [] => false
  | c :: rest =>
    (inFlow && [',', '?', '[', ']', '{', '}', ':'].contains c) || (c == ':' && endsWord rest) ||
      (c == '#' && before == ' ') || holdsMark inFlow c rest

/-- Whether a text can stand without quotes. An empty one can outside of brackets. -/
def canBePlain (inFlow : Bool) (text : List Char) : Bool :=
  match text with
  | [] => !inFlow
  | first :: rest =>
    text.all isPrintable && first != ' ' && text.getLast? != some ' ' &&
      !startsMarked inFlow text && !holdsMark inFlow first rest

/-- Whether a space stands beside a line break. -/
def hasLooseSpace : List Char → Bool
  | ' ' :: '\n' :: _ | '\n' :: ' ' :: _ => true
  | _ :: rest => hasLooseSpace rest
  | [] => false

/-- Whether a text can stand in single quotes. -/
def canBeSingleQuoted (text : List Char) : Bool :=
  text.all (fun c => c == '\n' || isPrintable c) && !hasLooseSpace text

/-- Whether a text has more than one line. -/
def isMultiline (text : List Char) : Bool := text.any isBreak

/-- The styles of scalars. -/
inductive Style where
  | plain
  | singleQuoted
  | doubleQuoted
deriving DecidableEq, Repr

/-- The style of a scalar. A key before a colon has one line. -/
def Style.of (inFlow isKey : Bool) (tag : Tag) (text : List Char) : Style :=
  if Tag.ofPlain text = tag ∧ !(isKey && (text.isEmpty || isMultiline text)) ∧
      canBePlain inFlow text then .plain
  else if canBeSingleQuoted text && !(isKey && isMultiline text) then .singleQuoted
  else .doubleQuoted

/-! ## Writing a text in a style -/

/-- A text without quotes from a column on. A single space beyond the width becomes a line break. -/
def plainText (indent : Nat) (split : Bool) : (afterSpace : Bool) → (column : Nat) → List Char →
    List Char
  | _, _, [] => []
  | afterSpace, column, c :: rest =>
    if c = ' ' then
      if split ∧ !afterSpace ∧ !endsWord rest ∧ lineWidth < column then
        newLine indent ++ plainText indent split false indent rest
      else ' ' :: plainText indent split true (column + 1) rest
    else c :: plainText indent split false (column + 1) rest

/-- The inside of single quotes. A quote is doubled, and so is the first of several line breaks. -/
def singleQuotedText (indent : Nat) (split : Bool) : (before : Option Char) → (column : Nat) →
    List Char → List Char
  | before, _, [] => if before = some '\n' then List.replicate indent ' ' else []
  | before, column, c :: rest =>
    if c = '\n' then
      if before = some '\n' then '\n' :: singleQuotedText indent split (some '\n') indent rest
      else '\n' :: '\n' :: singleQuotedText indent split (some '\n') indent rest
    else
      (if before = some '\n' then List.replicate indent ' ' else []) ++
        if c = '\'' then '\'' :: '\'' :: singleQuotedText indent split (some c) (column + 2) rest
        else if c = ' ' ∧ split ∧ before.isSome ∧ before ≠ some ' ' ∧ !endsWord rest ∧
            lineWidth < column then
          newLine indent ++ singleQuotedText indent split (some c) indent rest
        else c :: singleQuotedText indent split (some c) (column + 1) rest

/-- The short escapes inside double quotes. -/
def shortEscapes : List (Char × Char) :=
  [(Char.ofNat 0, '0'), (Char.ofNat 7, 'a'), (Char.ofNat 8, 'b'), ('\t', 't'), ('\n', 'n'),
    (Char.ofNat 0xB, 'v'), (Char.ofNat 0xC, 'f'), ('\r', 'r'), (Char.ofNat 0x1B, 'e'), ('"', '"'),
    ('\\', '\\'), (nextLine, 'N'), (Char.ofNat 0xA0, '_'), (lineSeparator, 'L'),
    (paragraphSeparator, 'P')]

/-- The digits of a number in base sixteen, in capitals and with leading zeros. -/
def hexDigits (width n : Nat) : List Char :=
  let digits := (Nat.toDigits 16 n).map Char.toUpper
  List.replicate (width - digits.length) '0' ++ digits

/-- An escaped character inside double quotes. -/
def escaped (c : Char) : List Char :=
  match shortEscapes.find? (·.1 == c) with
  | some (_, letter) => ['\\', letter]
  | none =>
    if c.toNat ≤ 0xFF then '\\' :: 'x' :: hexDigits 2 c.toNat
    else if c.toNat ≤ 0xFFFF then '\\' :: 'u' :: hexDigits 4 c.toNat
    else '\\' :: 'U' :: hexDigits 8 c.toNat

/-- Whether a character has to be escaped inside double quotes. -/
def needsEscape (c : Char) : Bool := c == '"' || c == '\\' || !isPrintable c

/-- The break of a long line inside double quotes, before the rest of the text. A space there is
escaped, to be kept. -/
def escapedBreak (indent : Nat) (rest : List Char) : List Char :=
  '\\' :: (newLine indent ++ if rest.head? = some ' ' then ['\\'] else [])

/-- The inside of double quotes. A line beyond the width is broken before a space and after an
escaped character. -/
def doubleQuotedText (indent : Nat) (split : Bool) : (first afterEscape : Bool) → (column : Nat) →
    List Char → List Char
  | _, _, _, [] => []
  | first, afterEscape, column, c :: rest =>
    let inside := split && !first && !rest.isEmpty
    if needsEscape c then
      let column := column + (escaped c).length
      if inside ∧ lineWidth + 1 < column then
        let gap := escapedBreak indent rest
        escaped c ++ gap ++ doubleQuotedText indent split false true (columnAfter column gap) rest
      else escaped c ++ doubleQuotedText indent split false true column rest
    else if inside ∧ (c = ' ' ∨ afterEscape) ∧ lineWidth < column then
      let gap := escapedBreak indent (c :: rest)
      gap ++ c :: doubleQuotedText indent split false false (columnAfter column gap + 1) rest
    else c :: doubleQuotedText indent split false false (column + 1) rest

/-- A scalar at a column, whose further lines have an indentation. -/
def scalarText (indent column : Nat) (inFlow isKey : Bool) (tag : Tag) (text : List Char) :
    List Char :=
  match Style.of inFlow isKey tag text with
  | .plain => plainText indent (!isKey) true column text
  | .singleQuoted => '\'' :: (singleQuotedText indent (!isKey) none (column + 1) text ++ ['\''])
  | .doubleQuoted =>
    '"' :: (doubleQuotedText indent (!isKey) true true (column + 1) text ++ ['"'])

end TrainingCollar.Yaml
