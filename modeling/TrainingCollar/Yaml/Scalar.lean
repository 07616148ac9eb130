import TrainingCollar.Yaml.Cursor
import TrainingCollar.Yaml.Schema

/-! # Reading scalars

The four ways to write a scalar: plain, between single or double quotes, and as a block after `|` or
`>`. Each reader takes a cursor at the start of the scalar and answers with its text and the cursor
after it. Loops run at most as often as there are characters left, which is what their fuel counts.
-/

namespace TrainingCollar.Yaml

/-- A text read, with the position after it. -/
abbrev Reading := List Char × Cursor

/-! ## Plain scalars -/

/-- A character that ends a plain scalar inside brackets. -/
def isFlowIndicator (c : Char) : Bool := [',', '?', '[', ']', '{', '}'].contains c

/-- Whether a colon with this character after it ends a plain scalar. -/
def endsPlain (inFlow : Bool) (c : Option Char) : Bool :=
  atGap c || (inFlow && endsWith [',', '[', ']', '{', '}'].contains c)

/-- The characters of a plain scalar up to the next gap. -/
def plainPiece (inFlow : Bool) : List Char → List Char
  | [] => []
  | c :: rest =>
    if isGap c || (c == ':' && endsPlain inFlow rest.head?) || (inFlow && isFlowIndicator c) then []
    else c :: plainPiece inFlow rest

/-- The line breaks after the first one, with the spaces around them skipped. Stops with `none` at a
marker of a document. -/
def foldBreaks : Nat → Cursor → Option (List Char) × Cursor
  | 0, c => (some [], c)
  | fuel + 1, c =>
    let c := c.skipSpaces
    match c.lineBreak? with
    | none => (some [], c)
    | some (br, c) =>
      if c.atDocumentMarker then (none, c)
      else
        let (breaks, c) := foldBreaks fuel c
        (breaks.map (br :: ·), c)

/-- A gap inside a plain scalar. -/
structure PlainGap where
  /-- What the gap contributes, if the scalar may go on after it. -/
  text : List Char
  cursor : Cursor
  /-- Whether the gap holds a line break. -/
  broken : Bool

/-- The gap after a piece of a plain scalar. A single line break counts as a space. -/
def plainGap (c : Cursor) : PlainGap :=
  let spaces := c.ahead (· == ' ')
  let c := c.skipSpaces
  match c.lineBreak? with
  | none => ⟨spaces, c, false⟩
  | some (br, c) =>
    if c.atDocumentMarker then ⟨[], c, true⟩
    else
      match foldBreaks c.rest.length c with
      | (none, c) => ⟨[], c, true⟩
      | (some breaks, c) =>
        ⟨if br ≠ '\n' then br :: breaks else if breaks.isEmpty then [' '] else breaks, c, true⟩

/-- The rest of a plain scalar after a gap, and whether a line break has been passed. -/
def plainRest (inFlow : Bool) (indent : Int) :
    Nat → (gap : List Char) → (broken : Bool) → Cursor → List Char × Cursor × Bool
  | 0, _, broken, c => ([], c, broken)
  | fuel + 1, gap, broken, c =>
    if c.peek = some '#' then ([], c, broken)
    else
      match plainPiece inFlow c.rest with
      | [] => ([], c, broken)
      | piece =>
        let next := plainGap (c.advance piece.length)
        let broken := next.broken
        if next.text.isEmpty || next.cursor.peek == some '#' ||
            (!inFlow && decide ((next.cursor.column : Int) < indent)) then
          (gap ++ piece, next.cursor, broken)
        else
          let (text, c, broken) := plainRest inFlow indent fuel next.text broken next.cursor
          (gap ++ piece ++ text, c, broken)

/-- A plain scalar, and whether the cursor is after a line break. -/
def readPlain (inFlow : Bool) (indent : Int) (c : Cursor) : List Char × Cursor × Bool :=
  plainRest inFlow indent (c.rest.length + 1) [] false c

/-! ## Quoted scalars -/

/-- The characters that a letter after a backslash stands for. -/
def escapes : List (Char × Nat) :=
  [('0', 0), ('a', 7), ('b', 8), ('t', 9), ('\t', 9), ('n', 10), ('v', 11), ('f', 12), ('r', 13),
    ('e', 27), (' ', 32), ('"', 34), ('\\', 92), ('/', 47), ('N', 0x85), ('_', 0xA0), ('L', 0x2028),
    ('P', 0x2029)]

/-- The number of hexadecimal digits after a letter after a backslash. -/
def codeLength? : Char → Option Nat
  | 'x' => some 2
  | 'u' => some 4
  | 'U' => some 8
  | _ => none

/-- The character with a code. Codes beyond the last character have none, and codes of half characters
give the replacement character. -/
def charOf (code : Nat) : Except Fault Char :=
  if 0x80000000 ≤ code then .error .tooLarge
  else if 0x10FFFF < code then .error .badValue
  else if 0xD800 ≤ code ∧ code ≤ 0xDFFF then .ok (Char.ofNat 0xFFFD)
  else .ok (Char.ofNat code)

/-- The line breaks inside a quoted scalar, with the spaces and tabs around them skipped. -/
def quotedBreaks : Nat → Cursor → Except Fault Reading
  | 0, c => .ok ([], c)
  | fuel + 1, c =>
    if c.atDocumentMarker then .error .malformed
    else
      let c := c.skip fun ch => ch == ' ' || ch == '\t'
      match c.lineBreak? with
      | none => .ok ([], c)
      | some (br, c) => do
        let (breaks, c) ← quotedBreaks fuel c
        return (br :: breaks, c)

/-- What follows a backslash between double quotes. -/
def readEscape (c : Cursor) : Except Fault Reading :=
  match c.peek with
  | none => .error .malformed
  | some letter =>
    match escapes.find? (·.1 == letter), codeLength? letter with
    | some (_, code), _ => .ok ([Char.ofNat code], c.next)
    | none, some length =>
      let digits := c.next.rest.take length
      if digits.length = length ∧ digits.all isHexDigit then do
        let ch ← charOf ((ofDigits? 16 0 digits).getD 0)
        return ([ch], c.next.advance length)
      else .error .malformed
    | none, none =>
      match c.lineBreak? with
      | some (_, c) => quotedBreaks (c.rest.length + 1) c
      | none => .error .malformed

/-- The characters between quotes up to the next gap or the end. -/
def quotedPiece (double : Bool) : Nat → Cursor → Except Fault Reading
  | 0, c => .ok ([], c)
  | fuel + 1, c =>
    match c.peek with
    | none => .ok ([], c)
    | some ch =>
      if isGap ch then .ok ([], c)
      else if !double && ch == '\'' && c.peekAt 1 == some '\'' then do
        let (text, c) ← quotedPiece double fuel c.next.next
        return ('\'' :: text, c)
      else if ch = (if double then '"' else '\'') then .ok ([], c)
      else if double && ch == '\\' then do
        let (escaped, c) ← readEscape c.next
        let (text, c) ← quotedPiece double fuel c
        return (escaped ++ text, c)
      else do
        let (text, c) ← quotedPiece double fuel c.next
        return (ch :: text, c)

/-- A gap between quotes. A single line break counts as a space. -/
def quotedGap (c : Cursor) : Except Fault Reading :=
  let isSpace (ch : Char) : Bool := ch == ' ' || ch == '\t'
  let spaces := c.ahead isSpace
  let c := c.skip isSpace
  match c.peek, c.lineBreak? with
  | none, _ => .error .malformed
  | some _, none => .ok (spaces, c)
  | some _, some (br, c) => do
    let (breaks, c) ← quotedBreaks (c.rest.length + 1) c
    return (if br ≠ '\n' then br :: breaks else if breaks.isEmpty then [' '] else breaks, c)

/-- The rest of a quoted scalar, up to and after the quote that ends it. -/
def quotedRest (double : Bool) : Nat → Cursor → Except Fault Reading
  | 0, _ => .error .malformed
  | fuel + 1, c => do
    let (piece, c) ← quotedPiece double (c.rest.length + 1) c
    if c.peek = some (if double then '"' else '\'') then return (piece, c.next)
    else
      let (gap, c) ← quotedGap c
      let (text, c) ← quotedRest double fuel c
      return (piece ++ gap ++ text, c)

/-- A scalar between quotes; the cursor is at the first of them. -/
def readQuoted (double : Bool) (c : Cursor) : Except Fault Reading :=
  quotedRest double (c.rest.length + 1) c.next

/-! ## Block scalars -/

/-- What becomes of the line breaks at the end of a block. -/
inductive Chomping where
  | strip
  | clip
  | keep
deriving DecidableEq

/-- The digit of an explicit indentation, which is not zero. -/
def readIncrement (c : Char) : Except Fault (Option Nat) :=
  if c = '0' then .error .malformed else .ok (some (c.toNat - '0'.toNat))

/-- The chomping that a sign stands for. -/
def chompingOf (c : Char) : Chomping := if c = '+' then .keep else .strip

/-- Chomping and explicit indentation in either order. -/
def readBlockHeader (c : Cursor) : Except Fault (Chomping × Option Nat × Cursor) := do
  let isSign (ch : Char) : Bool := ch == '+' || ch == '-'
  let (chomping, increment, c) ← (match c.peek, c.peekAt 1 with
    | some a, some b =>
      if isSign a && isDigit b then do return (chompingOf a, ← readIncrement b, c.next.next)
      else if isDigit a && isSign b then do return (chompingOf b, ← readIncrement a, c.next.next)
      else if isSign a then return (chompingOf a, none, c.next)
      else if isDigit a then do return (.clip, ← readIncrement a, c.next)
      else return (.clip, none, c)
    | some a, none =>
      if isSign a then return (chompingOf a, none, c.next)
      else if isDigit a then do return (.clip, ← readIncrement a, c.next)
      else return (.clip, none, c)
    | none, _ => return (.clip, none, c) : Except Fault (Chomping × Option Nat × Cursor))
  if atSpace c.peek then return (chomping, increment, ← c.endLine) else .error .malformed

/-- The line breaks before the first line that is not empty, and the greatest column reached by
spaces. -/
def leadingBreaks : Nat → Nat → Cursor → List Char × Nat × Cursor
  | 0, widest, c => ([], widest, c)
  | fuel + 1, widest, c =>
    let c := c.skipSpaces
    let widest := max widest c.column
    match c.lineBreak? with
    | none => ([], widest, c)
    | some (br, c) =>
      let (breaks, widest, c) := leadingBreaks fuel widest c
      (br :: breaks, widest, c)

/-- The line breaks of empty lines, and the indentation of the line after them. -/
def blockBreaks (indent : Nat) : Nat → Cursor → Reading
  | 0, c => ([], c)
  | fuel + 1, c =>
    let c := c.skipSpacesTo indent
    match c.lineBreak? with
    | none => ([], c)
    | some (br, c) =>
      let (breaks, c) := blockBreaks indent fuel c
      (br :: breaks, c)

/-- The lines of a block, given the breaks before the first of them: the text with the chomped end. In
a folded block a single break between lines that do not start with a blank counts as a space. -/
def blockLines (folded : Bool) (chomping : Chomping) (indent : Nat) :
    Nat → List Char → Cursor → Reading
  | 0, _, c => ([], c)
  | fuel + 1, breaks, c =>
    let isBlankStart (c : Cursor) : Bool := c.peek == some ' ' || c.peek == some '\t'
    let chars := c.ahead (!isBreak ·)
    let afterLine := c.skip (!isBreak ·)
    let (br, afterBreak) := match afterLine.lineBreak? with
      | some (br, next) => ([br], next)
      | none => ([], afterLine)
    let (more, next) := blockBreaks indent (afterBreak.rest.length + 1) afterBreak
    if next.column = indent ∧ next.peek.isSome then
      let joint :=
        if folded && br == ['\n'] && !isBlankStart c && !isBlankStart next then
          if more.isEmpty then [' '] else []
        else br
      let (text, last) := blockLines folded chomping indent fuel more next
      (breaks ++ chars ++ joint ++ text, last)
    else
      let tail := match chomping with
        | .strip => []
        | .clip => br
        | .keep => br ++ more
      (breaks ++ chars ++ tail, next)

/-- A block scalar; the cursor is at its indicator, and `parent` is the indentation around it. -/
def readBlock (folded : Bool) (parent : Int) (c : Cursor) : Except Fault Reading := do
  let (chomping, increment, c) ← readBlockHeader c.next
  let least := max 1 (parent + 1).toNat
  let (breaks, indent, c) := match increment with
    | some increment =>
      let indent := least + increment - 1
      let (breaks, c) := blockBreaks indent (c.rest.length + 1) c
      (breaks, indent, c)
    | none =>
      let (breaks, widest, c) := leadingBreaks (c.rest.length + 1) 0 c
      (breaks, max least widest, c)
  if c.column = indent ∧ c.peek.isSome then
    return blockLines folded chomping indent (c.rest.length + 1) breaks c
  else return (if chomping = .keep then breaks else [], c)

end TrainingCollar.Yaml
