import TrainingCollar.Yaml.Property
import TrainingCollar.Yaml.Scalar

/-! # From text to tokens

The lexer turns indentation into tokens and finds the keys of mappings. A key is only known as one
when the colon after it is reached, so the lexer remembers where a key may have started, one place for
each depth of brackets, and inserts the tokens for it there.
-/

namespace TrainingCollar.Yaml

/-- A place where a key may have started. -/
structure KeyStart where
  /-- How many tokens came before. -/
  before : Nat
  /-- Whether nothing but a key can start here. -/
  required : Bool
  index : Nat
  line : Nat
  column : Nat

/-- The state of the lexer. -/
structure Lexer where
  cursor : Cursor
  /-- The tokens so far, the last one first. -/
  tokens : List Token
  /-- How many there are. -/
  count : Nat
  /-- The depth of brackets. -/
  depth : Nat
  /-- The column of the innermost block collection, `-1` outside of all. -/
  indent : Int
  /-- The columns of the collections around it, innermost first. -/
  outer : List Int
  /-- Whether a key may start here. -/
  allowKey : Bool
  /-- The places where keys may have started, by depth. -/
  starts : List (Nat × KeyStart)

/-- The longest key, in characters. -/
def keyLimit : Nat := 1024

namespace Lexer

/-- The lexer at the start of a text. -/
def start (text : List Char) : Lexer where
  cursor := .start text
  tokens := []
  count := 0
  depth := 0
  indent := -1
  outer := []
  allowKey := true
  starts := []

/-- Whether the lexer is inside brackets. -/
def inFlow (l : Lexer) : Bool := l.depth != 0

/-- Adds a token at the end. -/
def emit (l : Lexer) (token : Token) : Lexer :=
  { l with tokens := token :: l.tokens, count := l.count + 1 }

/-- Adds a token after the first `before` tokens. -/
def insertAt (l : Lexer) (before : Nat) (token : Token) : Lexer :=
  let later := l.count - before
  { l with
    tokens := l.tokens.take later ++ token :: l.tokens.drop later
    count := l.count + 1 }

/-- Moves the cursor. -/
def moveTo (l : Lexer) (c : Cursor) : Lexer := { l with cursor := c }

/-- Forgets where a key may have started at the present depth. A required key must not be forgotten. -/
def forgetKey (l : Lexer) : Except Fault Lexer :=
  if l.starts.any fun (depth, key) => depth == l.depth && key.required then .error .malformed
  else .ok { l with starts := l.starts.filter (·.1 != l.depth) }

/-- Remembers that a key may start here. -/
def rememberKey (l : Lexer) : Except Fault Lexer :=
  if l.allowKey then do
    let l ← l.forgetKey
    let c := l.cursor
    let key : KeyStart :=
      ⟨l.count, !l.inFlow && l.indent == (c.column : Int), c.index, c.line, c.column⟩
    return { l with starts := (l.depth, key) :: l.starts }
  else return l

/-- Forgets keys that are no longer possible: a key keeps to one line and to a limited length. -/
def dropStale (l : Lexer) : Except Fault Lexer :=
  let stale (key : KeyStart) : Bool :=
    key.line != l.cursor.line || keyLimit < l.cursor.index - key.index
  if l.starts.any fun (_, key) => stale key && key.required then .error .malformed
  else .ok { l with starts := l.starts.filter fun (_, key) => !stale key }

/-- Ends the block collections to the right of a column, given the columns around them. -/
def closeBlocks (column : Int) : List Int → Lexer → Lexer
  | [], l => l
  | around :: rest, l =>
    if column < l.indent then
      closeBlocks column rest { l.emit .blockEnd with indent := around, outer := rest }
    else l

/-- Ends the block collections to the right of a column; inside brackets indentation means nothing. -/
def unwind (l : Lexer) (column : Int) : Lexer :=
  if l.inFlow then l else closeBlocks column l.outer l

/-- Starts a block collection at a column, unless one has started there, with a token after the first
`before` tokens. -/
def openBlock (l : Lexer) (column before : Nat) (token : Token) : Lexer :=
  if l.indent < column then
    { l.insertAt before token with indent := column, outer := l.indent :: l.outer }
  else l

/-- Skips spaces, comments and line breaks. After a line break outside of brackets a key may start. -/
def skipGap (inFlow : Bool) : Nat → Cursor → Bool → Cursor × Bool
  | 0, c, allowKey => (c, allowKey)
  | fuel + 1, c, allowKey =>
    let c := c.skipSpaces
    let c := if c.peek = some '#' then c.skip (!isBreak ·) else c
    match c.lineBreak? with
    | some (_, c) => skipGap inFlow fuel c (allowKey || !inFlow)
    | none => (c, allowKey)

/-- Moves to the next token. -/
def toNextToken (l : Lexer) : Lexer :=
  let c := if l.cursor.index = 0 ∧ l.cursor.peek = some byteOrderMark then l.cursor.next else l.cursor
  let (c, allowKey) := skipGap l.inFlow (c.rest.length + 1) c l.allowKey
  { l with cursor := c, allowKey := allowKey }

/-- A marker of a document's start or end, or a directive: all collections end before it. -/
def atTop (l : Lexer) : Except Fault Lexer := do
  let l ← (l.unwind (-1)).forgetKey
  return { l with allowKey := false }

/-- An opening bracket. -/
def openBracket (l : Lexer) (token : Token) : Except Fault Lexer := do
  let l ← l.rememberKey
  return { (l.emit token).moveTo l.cursor.next with depth := l.depth + 1, allowKey := true }

/-- A closing bracket. One that closes nothing is refused. -/
def closeBracket (l : Lexer) (token : Token) : Except Fault Lexer := do
  let l ← l.forgetKey
  if l.depth = 0 then .error .malformed
  else return { (l.emit token).moveTo l.cursor.next with depth := l.depth - 1, allowKey := false }

/-- A comma. -/
def comma (l : Lexer) : Except Fault Lexer := do
  let l ← { l with allowKey := true }.forgetKey
  return (l.emit .comma).moveTo l.cursor.next

/-- A dash before an item. -/
def item (l : Lexer) : Except Fault Lexer := do
  if !l.inFlow && !l.allowKey then .error .malformed
  else
    let l := if l.inFlow then l else l.openBlock l.cursor.column l.count .sequenceStart
    let l ← { l with allowKey := true }.forgetKey
    return (l.emit .item).moveTo l.cursor.next

/-- A question mark before a key. -/
def explicitKey (l : Lexer) : Except Fault Lexer := do
  if !l.inFlow && !l.allowKey then .error .malformed
  else
    let l := if l.inFlow then l else l.openBlock l.cursor.column l.count .mappingStart
    let l ← { l with allowKey := !l.inFlow }.forgetKey
    return (l.emit .key).moveTo l.cursor.next

/-- A colon before a value. If a key may have started before, it has. -/
def value (l : Lexer) : Except Fault Lexer :=
  match l.starts.find? (·.1 == l.depth) with
  | some (_, key) =>
    let l := { l with starts := l.starts.filter (·.1 != l.depth), allowKey := false }
    let l := l.insertAt key.before .key
    let l := if l.inFlow then l else l.openBlock key.column key.before .mappingStart
    .ok ((l.emit .value).moveTo l.cursor.next)
  | none => do
    if !l.inFlow && !l.allowKey then .error .malformed
    else
      let l := if l.inFlow then l else l.openBlock l.cursor.column l.count .mappingStart
      let l ← { l with allowKey := !l.inFlow }.forgetKey
      return (l.emit .value).moveTo l.cursor.next

/-- A token that may start a key and after which none may. -/
def keyPart (l : Lexer) (read : Cursor → Except Fault (Token × Cursor)) : Except Fault Lexer := do
  let l ← l.rememberKey
  let (token, c) ← read l.cursor
  return { (l.emit token).moveTo c with allowKey := false }

/-- A plain scalar. -/
def plain (l : Lexer) : Except Fault Lexer := do
  let l ← l.rememberKey
  let (text, c, broken) := readPlain l.inFlow (l.indent + 1) l.cursor
  return { (l.emit (.scalar true text)).moveTo c with allowKey := broken }

/-- A block scalar. -/
def block (l : Lexer) (folded : Bool) : Except Fault Lexer := do
  let l ← { l with allowKey := true }.forgetKey
  let (text, c) ← readBlock folded l.indent l.cursor
  return (l.emit (.scalar false text)).moveTo c

/-- A character that never starts a plain scalar. -/
def isIndicator (c : Char) : Bool :=
  ['-', '?', ':', ',', '[', ']', '{', '}', '#', '&', '*', '!', '|', '>', '\'', '"', '%', '@',
    graveAccent].contains c

/-- Whether a plain scalar starts with this character, given the one after it. -/
def startsPlain (inFlow : Bool) (c : Char) (after : Option Char) : Bool :=
  (!isGap c && !isIndicator c) ||
    (!atGap after && (c == '-' || (!inFlow && (c == '?' || c == ':'))))

/-- Reads the token at the cursor, which starts with the given character. -/
def token (l : Lexer) (ch : Char) : Except Fault Lexer :=
  let c := l.cursor
  let after := c.peekAt 1
  if ch = '%' ∧ c.column = 0 then do
    let l ← l.atTop
    let (directive, c) ← readDirective c
    return (l.emit (.directive directive)).moveTo c
  else if c.column = 0 ∧ c.atMarker '-' then do
    return ((← l.atTop).emit .documentStart).moveTo (c.advance 3)
  else if c.column = 0 ∧ c.atMarker '.' then do
    return ((← l.atTop).emit .documentEnd).moveTo (c.advance 3)
  else if ch = '[' then l.openBracket .flowSequenceStart
  else if ch = '{' then l.openBracket .flowMappingStart
  else if ch = ']' then l.closeBracket .flowSequenceEnd
  else if ch = '}' then l.closeBracket .flowMappingEnd
  else if ch = ',' then l.comma
  else if ch = '-' ∧ atGap after then l.item
  else if ch = '?' ∧ (l.inFlow ∨ atGap after) then l.explicitKey
  else if ch = ':' ∧ (l.inFlow ∨ atGap after) then l.value
  else if ch = '*' then
    l.keyPart fun c => do let (name, c) ← readName c; return (.alias name, c)
  else if ch = '&' then
    l.keyPart fun c => do let (name, c) ← readName c; return (.anchor name, c)
  else if ch = '!' then
    l.keyPart fun c => do let (handle, suffix, c) ← readTag c; return (.tag handle suffix, c)
  else if ch = '|' ∧ !l.inFlow then l.block false
  else if ch = '>' ∧ !l.inFlow then l.block true
  else if ch = '\'' ∨ ch = '"' then
    l.keyPart fun c => do let (text, c) ← readQuoted (ch == '"') c; return (.scalar false text, c)
  else if startsPlain l.inFlow ch after then l.plain
  else .error .malformed

/-- Moves to the next token and makes sure that what came before it is complete. -/
def settle (l : Lexer) : Except Fault Lexer := do
  let l ← l.toNextToken.dropStale
  return l.unwind l.cursor.column

/-- The tokens up to the end of the text, the last one first. Each round reads a character. -/
def run : Nat → Lexer → Except Fault (List Token)
  | 0, _ => .error .malformed
  | fuel + 1, l => do
    let l ← l.settle
    match l.cursor.peek with
    | some ch => run fuel (← l.token ch)
    | none =>
      let l ← (l.unwind (-1)).forgetKey
      return .streamEnd :: l.tokens

end Lexer

/-- The tokens of a text, all of whose characters have to be readable. -/
def tokensOf (text : List Char) : Except Fault (List Token) :=
  if text.all isReadable then do
    let tokens ← Lexer.run (text.length + 2) (.start text)
    return tokens.reverse
  else .error .malformed

end TrainingCollar.Yaml
