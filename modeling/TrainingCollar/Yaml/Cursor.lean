import TrainingCollar.Fault

/-! # Cursors

A cursor is a position in a text: the characters that remain, with the line, the column and the
number of characters passed. Line ends have been unified, so a line feed, a next-line character and
the two Unicode separators are the line breaks.
-/

namespace TrainingCollar.Yaml

/-- A position in a text. -/
structure Cursor where
  rest : List Char
  line : Nat
  column : Nat
  index : Nat

/-- The mark that may stand at the start of a text. It takes no column. -/
def byteOrderMark : Char := Char.ofNat 0xFEFF

/-- The next-line character. -/
def nextLine : Char := Char.ofNat 0x85

/-- The line separator. -/
def lineSeparator : Char := Char.ofNat 0x2028

/-- The paragraph separator. -/
def paragraphSeparator : Char := Char.ofNat 0x2029

/-- A character that ends a line. -/
def isBreak (c : Char) : Bool :=
  c == '\n' || c == nextLine || c == lineSeparator || c == paragraphSeparator

/-- A space, a tab or a line break. -/
def isGap (c : Char) : Bool := c == ' ' || c == '\t' || isBreak c

/-- Whether nothing, or a character with a property, comes next. -/
def endsWith (p : Char → Bool) : Option Char → Bool
  | none => true
  | some c => p c

/-- Whether the text ends or a gap comes next. -/
def atGap (c : Option Char) : Bool := endsWith isGap c

/-- Whether the text ends, or a space or a line break comes next. -/
def atSpace (c : Option Char) : Bool := endsWith (fun c => c == ' ' || isBreak c) c

/-- A character that a document may hold. -/
def isReadable (c : Char) : Bool :=
  c == '\t' || c == '\n' || c == '\r' || (' ' ≤ c && c ≤ '~') || c == nextLine ||
    (0xA0 ≤ c.toNat && c.toNat ≤ 0xFFFD) || 0x10000 ≤ c.toNat

namespace Cursor

/-- The start of a text. -/
def start (text : List Char) : Cursor := ⟨text, 0, 0, 0⟩

/-- The next character, if any. -/
def peek (c : Cursor) : Option Char := c.rest.head?

/-- The character some places ahead, if any. -/
def peekAt (c : Cursor) (n : Nat) : Option Char := c.rest[n]?

/-- The position after the next character. -/
def next (c : Cursor) : Cursor :=
  match c.rest with
  | [] => c
  | ch :: rest =>
    if isBreak ch then ⟨rest, c.line + 1, 0, c.index + 1⟩
    else if ch = byteOrderMark then ⟨rest, c.line, c.column, c.index + 1⟩
    else ⟨rest, c.line, c.column + 1, c.index + 1⟩

/-- The position a number of characters further on. -/
def advance (c : Cursor) : Nat → Cursor
  | 0 => c
  | n + 1 => c.next.advance n

/-- The characters ahead that have a property, up to the first that has not. -/
def ahead (p : Char → Bool) (c : Cursor) : List Char := c.rest.takeWhile p

/-- The position after the characters ahead that have a property. -/
def skip (p : Char → Bool) (c : Cursor) : Cursor := c.advance (c.ahead p).length

/-- The position after spaces. -/
def skipSpaces (c : Cursor) : Cursor := c.skip (· == ' ')

/-- The position after spaces, but not beyond a column. -/
def skipSpacesTo (column : Nat) (c : Cursor) : Cursor :=
  c.advance (min (c.ahead (· == ' ')).length (column - c.column))

/-- A line break as it counts in a text, and the position after it. The separators stand for
themselves, the other breaks for a line feed. -/
def lineBreak? (c : Cursor) : Option (Char × Cursor) :=
  match c.peek with
  | some ch =>
    if isBreak ch then
      some (if ch = lineSeparator ∨ ch = paragraphSeparator then ch else '\n', c.next)
    else none
  | none => none

/-- Whether three characters stand ahead as a word of their own. -/
def atMarker (mark : Char) (c : Cursor) : Bool :=
  c.rest.take 3 == [mark, mark, mark] && atGap (c.peekAt 3)

/-- Whether one of the markers of a document's start or end stands ahead. -/
def atDocumentMarker (c : Cursor) : Bool := c.atMarker '-' || c.atMarker '.'

/-- The position after an optional comment and the end of its line. -/
def endLine (c : Cursor) : Except Fault Cursor :=
  let c := c.skipSpaces
  let c := if c.peek = some '#' then c.skip (!isBreak ·) else c
  match c.peek, c.lineBreak? with
  | none, _ => .ok c
  | some _, some (_, c) => .ok c
  | some _, none => .error .malformed

end Cursor

end TrainingCollar.Yaml
