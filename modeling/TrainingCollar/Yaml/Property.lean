import TrainingCollar.Yaml.Cursor
import TrainingCollar.Yaml.Schema
import TrainingCollar.Yaml.Token

/-! # Reading anchors, tags and directives

The parts of a document that are neither structure nor scalars.
-/

namespace TrainingCollar.Yaml

/-- A character of a name: a letter, a digit, a dash or an underscore. -/
def isNameChar (c : Char) : Bool :=
  isDigit c || ('A' ≤ c && c ≤ 'Z') || ('a' ≤ c && c ≤ 'z') || c == '-' || c == '_'

/-- A character of a uniform name. -/
def isUriChar (c : Char) : Bool :=
  isNameChar c || [';', '/', '?', ':', '@', '&', '=', '+', '$', ',', '.', '!', '~', '*', '\'', '(',
    ')', '[', ']', '%'].contains c

/-- The grave accent. -/
def graveAccent : Char := Char.ofNat 0x60

/-- A name after the indicator of an anchor or an alias. -/
def readName (c : Cursor) : Except Fault (String × Cursor) :=
  let c := c.next
  let name := c.ahead isNameChar
  let c := c.advance name.length
  let ends (ch : Char) : Bool :=
    isGap ch || ['?', ':', ',', ']', '}', '%', '@', graveAccent].contains ch
  if !name.isEmpty && endsWith ends c.peek then .ok (String.ofList name, c) else .error .malformed

/-- The handle of a tag: an exclamation mark, or a name between two of them. -/
def readHandle (c : Cursor) : Except Fault (String × Cursor) :=
  if c.peek ≠ some '!' then .error .malformed
  else
    let c := c.next
    if c.peek = some ' ' then .ok ("!", c)
    else
      let name := c.ahead isNameChar
      let c := c.advance name.length
      if c.peek = some '!' then .ok ("!" ++ String.ofList name ++ "!", c.next) else .error .malformed

/-- The bytes of a uniform name, in which a percent sign and two digits stand for one. -/
def uriBytes : List Char → Option (List UInt8)
  | [] => some []
  | '%' :: a :: b :: rest =>
    if isHexDigit a && isHexDigit b then
      (uriBytes rest).map (UInt8.ofNat ((ofDigits? 16 0 [a, b]).getD 0) :: ·)
    else none
  | c :: rest => if c = '%' then none else (uriBytes rest).map (c.toNat.toUInt8 :: ·)

/-- A uniform name, which is not empty. -/
def readUri (c : Cursor) : Except Fault (String × Cursor) :=
  let chars := c.ahead isUriChar
  match uriBytes chars with
  | some content =>
    match String.fromUTF8? (ByteArray.mk content.toArray) with
    | some uri => if uri.isEmpty then .error .malformed else .ok (uri, c.advance chars.length)
    | none => .error .malformed
  | none => .error .malformed

/-- The handle and the rest of a tag; the cursor is at its exclamation mark. -/
def readTag (c : Cursor) : Except Fault (Option String × String × Cursor) := do
  let (handle, suffix, c) ← (
    if c.peekAt 1 = some '<' then do
      let (uri, c) ← readUri c.next.next
      if c.peek = some '>' then return (none, uri, c.next) else .error .malformed
    else if atGap (c.peekAt 1) then return (none, "!", c.next)
    else do
      let word := c.next.ahead fun ch => ch != ' ' && !isBreak ch
      let (handle, c) ← if word.contains '!' then readHandle c else .ok ("!", c.next)
      let (uri, c) ← readUri c
      return (some handle, uri, c) : Except Fault (Option String × String × Cursor))
  if atSpace c.peek then return (handle, suffix, c) else .error .malformed

/-- A number in a version, with the position after it. -/
def readVersionNumber (c : Cursor) : Except Fault (Nat × Cursor) :=
  let digits := c.ahead isDigit
  if digits.isEmpty || Value.digitLimit < digits.length then .error .malformed
  else .ok (Nat.ofDigitChars 10 digits 0, c.advance digits.length)

/-- A directive, up to and with the end of its line; the cursor is at its percent sign. -/
def readDirective (c : Cursor) : Except Fault (Directive × Cursor) := do
  let name := c.next.ahead isNameChar
  let c := c.next.advance name.length
  if name.isEmpty || !atSpace c.peek then .error .malformed
  else if name = ['Y', 'A', 'M', 'L'] then do
    let (major, c) ← readVersionNumber c.skipSpaces
    if c.peek = some '.' then do
      let (_, c) ← readVersionNumber c.next
      if atSpace c.peek then return (.version major, ← c.endLine) else .error .malformed
    else .error .malformed
  else if name = ['T', 'A', 'G'] then do
    let (handle, c) ← readHandle c.skipSpaces
    if c.peek = some ' ' then do
      let (uri, c) ← readUri c.skipSpaces
      if atSpace c.peek then return (.tagHandle handle uri, ← c.endLine) else .error .malformed
    else .error .malformed
  else return (.other, ← (c.skip (!isBreak ·)).endLine)

end TrainingCollar.Yaml
