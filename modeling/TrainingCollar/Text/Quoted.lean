import TrainingCollar.Text.Printable

/-! # Quoted texts

A text inside a message stands between single quotes, or between double quotes if it holds a single
quote and no double one. Backslashes, the quote in use, line ends and tabs are escaped by a
backslash, other characters that are not printable by their code in hexadecimal.
-/

namespace TrainingCollar.Text

/-- A number in lower case hexadecimal, with at least `width` digits. -/
def hex (width n : Nat) : List Char :=
  let digits := Nat.toDigits 16 n
  List.replicate (width - digits.length) '0' ++ digits

/-- The code of a character as an escape of two, four or eight digits. -/
def codeEscape (code : Nat) : List Char :=
  if code < 0x100 then '\\' :: 'x' :: hex 2 code
  else if code < 0x10000 then '\\' :: 'u' :: hex 4 code
  else '\\' :: 'U' :: hex 8 code

/-- A double quote if the characters hold a single quote and no double one. -/
def quoteFor (s : List Char) : Char :=
  if s.contains '\'' && !s.contains '"' then '"' else '\''

/-- A character inside quotes, given which characters stand for themselves. -/
def escapeWith (plain : Char → Bool) (quote c : Char) : List Char :=
  if c = '\\' ∨ c = quote then ['\\', c]
  else if c = '\n' then ['\\', 'n']
  else if c = '\r' then ['\\', 'r']
  else if c = '\t' then ['\\', 't']
  else if plain c then [c]
  else codeEscape c.toNat

/-- The characters between quotes. -/
def quoteWith (plain : Char → Bool) (s : List Char) : List Char :=
  let quote := quoteFor s
  quote :: (s.flatMap (escapeWith plain quote) ++ [quote])

/-- A text between quotes. -/
def quoted (s : String) : String := String.ofList (quoteWith isPrintable s.toList)

/-- Bytes between quotes, marked by a `b`; only printable ASCII stands for itself. -/
def quotedBytes (bytes : List UInt8) : String :=
  String.ofList ('b' ::
    quoteWith (fun c => ' ' ≤ c && c ≤ '~') (bytes.map fun byte => Char.ofNat byte.toNat))

end TrainingCollar.Text
