import TrainingCollar.Value.Text
import TrainingCollar.Yaml.Node
import TrainingCollar.Yaml.Style

/-! # Writing documents

`Node.ofValue` gives the node for a value and `Node.render` its text. A collection of scalars is
written in one line, in brackets; every other one has a line for each item or entry. The items of a
sequence under a key are not indented.
-/

namespace TrainingCollar

/-- A number as written in documents, where every one has a point. -/
def Binary64.documentText : Binary64 → List Char
  | .nan => ['.', 'n', 'a', 'n']
  | .infinite negative => (if negative then ['-'] else []) ++ ['.', 'i', 'n', 'f']
  | .finite negative mantissa shift _ =>
    (if negative then ['-'] else []) ++ Layout.document.render (Decimal.shortest mantissa shift)

namespace Yaml.Node

/-! ## The node for a value -/

mutual

/-- The node for a value. Only what a stored configuration consists of has one. -/
def ofValue : Value → Except Fault Node
  | .null => .ok (.scalar none .null "null".toList)
  | .bool b => .ok (.scalar none .bool (if b then "true" else "false").toList)
  | .int n =>
    if Value.fits n then .ok (.scalar none .int (toString n).toList) else .error .badValue
  | .float x => .ok (.scalar none .float x.documentText)
  | .text s => .ok (.scalar none .str s.toList)
  | .list items | .tuple items => (ofItems items).map (.sequence none .seq)
  | .map entries => (ofEntries entries).map (.mapping none .map)
  | _ => .error .malformed

/-- The nodes for the items of a sequence. -/
def ofItems : List Value → Except Fault (List Node)
  | [] => .ok []
  | item :: rest => do
    let item ← ofValue item
    let rest ← ofItems rest
    return item :: rest

/-- The nodes for the entries of a mapping. -/
def ofEntries : List (Value × Value) → Except Fault (List (Node × Node))
  | [] => .ok []
  | (key, value) :: rest => do
    let key ← ofValue key
    let value ← ofValue value
    let rest ← ofEntries rest
    return (key, value) :: rest

end

/-! ## Collections in brackets -/

/-- A scalar: its tag and its text. -/
abbrev Scalar := Tag × List Char

/-- The scalar that a node is. -/
def scalar? : Node → Option Scalar
  | .scalar _ tag text => some (tag, text)
  | _ => none

/-- The items of a sequence of scalars. -/
def scalars? (items : List Node) : Option (List Scalar) := items.mapM scalar?

/-- The entries of a mapping of scalars. -/
def scalarPairs? (pairs : List (Node × Node)) : Option (List (Scalar × Scalar)) :=
  pairs.mapM fun (key, value) => do return (← key.scalar?, ← value.scalar?)

/-- The longest key before a colon, less one; its tag counts. -/
def keyWidth : Nat := 128

/-- How many characters the short form of a tag has. -/
def tagWidth (tag : Tag) : Nat :=
  match coreTags.find? (·.2 == tag) with
  | some (name, _) => name.length + 2
  | none => 0

/-- Whether a scalar can be a key before a colon. -/
def isShortKey (key : Scalar) : Bool :=
  tagWidth key.1 + key.2.length < keyWidth && !key.2.isEmpty && !isMultiline key.2

/-- What comes before an item in brackets: a line break if the line is full, else a space except for
the first item. -/
def gapBefore (indent column : Nat) (first : Bool) : List Char :=
  if lineWidth < column then newLine indent else if first then [] else [' ']

/-- The rest of a sequence in brackets, from an item on. -/
def flowItems (indent : Nat) (first : Bool) (column : Nat) : List Scalar → List Char
  | [] => [']']
  | (tag, text) :: rest =>
    let gap := (if first then [] else [',']) ++
      gapBefore indent (if first then column else column + 1) first
    let item := gap ++ scalarText (indent + 2) (columnAfter column gap) true false tag text
    item ++ flowItems indent false (columnAfter column item) rest

/-- A key in braces: before a colon if it can be, else after a question mark. -/
def flowKey (indent column : Nat) (key : Scalar) : List Char :=
  if isShortKey key then scalarText (indent + 2) column true true key.1 key.2 ++ [':']
  else
    let text := '?' :: ' ' :: scalarText (indent + 2) (column + 2) true false key.1 key.2
    text ++ (gapBefore indent (columnAfter column text) false ++ [':'])

/-- The rest of a mapping in braces, from an entry on. -/
def flowEntries (indent : Nat) (first : Bool) (column : Nat) : List (Scalar × Scalar) → List Char
  | [] => ['}']
  | (key, tag, text) :: rest =>
    let gap := (if first then [] else [',']) ++
      gapBefore indent (if first then column else column + 1) first
    let start := gap ++ (flowKey indent (columnAfter column gap) key ++ [' '])
    let entry := start ++ scalarText (indent + 2) (columnAfter column start) true false tag text
    entry ++ flowEntries indent false (columnAfter column entry) rest

/-- A sequence in brackets at a column, whose items are all scalars. -/
def flowSequence? (indent column : Nat) (items : List Node) : Option (List Char) :=
  (scalars? items).map fun items => '[' :: flowItems indent true (column + 1) items

/-- A mapping in braces at a column, whose keys and values are all scalars. -/
def flowMapping? (indent column : Nat) (pairs : List (Node × Node)) : Option (List Char) :=
  (scalarPairs? pairs).map fun pairs => '{' :: flowEntries indent true (column + 1) pairs

/-! ## Collections in lines -/

/-- A key before a colon in a mapping in lines. An empty sequence or mapping can be one, too. -/
def blockKey? (indent : Nat) : Node → Option (List Char)
  | .scalar _ tag text =>
    if isShortKey (tag, text) then some (scalarText (indent + 2) indent false true tag text) else none
  | .sequence _ _ [] => some ['[', ']']
  | .mapping _ _ [] => some ['{', '}']
  | _ => none

/-- What a node is written after. -/
inductive Lead where
  /-- Nothing: the node is the root. -/
  | start
  /-- A dash, a question mark or a lone colon. -/
  | mark
  /-- A key with a colon that ends at this column. -/
  | key (column : Nat)

namespace Lead

/-- The space before a node in the same line. -/
def space : Lead → List Char
  | start => []
  | _ => [' ']

/-- The column of a node in the same line. -/
def column (indent : Nat) : Lead → Nat
  | start => 0
  | mark => indent + 2
  | key column => column + 1

/-- The indentation of a collection in lines. -/
def inner (indent : Nat) (isSequence : Bool) : Lead → Nat
  | start => indent
  | mark => indent + 2
  | key _ => if isSequence then indent else indent + 2

/-- What comes before a collection in lines: after a key it starts in the next line. -/
def gap (indent : Nat) (isSequence : Bool) : Lead → List Char
  | key column => newLine ((key column).inner indent isSequence)
  | lead => lead.space

end Lead

mutual

/-- The text of a node inside an indentation, with what separates it from what is before. -/
def text (lead : Lead) (indent : Nat) : Node → List Char
  | .alias name => lead.space ++ '*' :: name.toList
  | .scalar _ tag text =>
    lead.space ++ scalarText (indent + 2) (lead.column indent) false false tag text
  | .sequence _ _ items =>
    match flowSequence? (indent + 2) (lead.column indent) items with
    | some text => lead.space ++ text
    | none => lead.gap indent true ++ blockItems (lead.inner indent true) true items
  | .mapping _ _ pairs =>
    match flowMapping? (indent + 2) (lead.column indent) pairs with
    | some text => lead.space ++ text
    | none => lead.gap indent false ++ blockEntries (lead.inner indent false) true pairs

/-- The items of a sequence, each after a dash. -/
def blockItems (indent : Nat) (first : Bool) : List Node → List Char
  | [] => []
  | item :: rest =>
    (if first then [] else newLine indent) ++
      ('-' :: text .mark indent item ++ blockItems indent false rest)

/-- The entries of a mapping. -/
def blockEntries (indent : Nat) (first : Bool) : List (Node × Node) → List Char
  | [] => []
  | (key, value) :: rest =>
    (if first then [] else newLine indent) ++
      match blockKey? indent key with
      | some start =>
        start ++ ':' :: text (.key (indent + start.length + 1)) indent value ++
          blockEntries indent false rest
      | none =>
        '?' :: text .mark indent key ++ (newLine indent ++ ':' :: text .mark indent value) ++
          blockEntries indent false rest

end

/-- Whether a node is written as a text without quotes. -/
def isPlainText : Node → Bool
  | .scalar _ tag text => Style.of false false tag text == .plain
  | _ => false

/-- The text of a document. A text without quotes is marked at its end. -/
def render (root : Node) : List Char :=
  text .start 0 root ++ '\n' :: (if root.isPlainText then ['.', '.', '.', '\n'] else [])

end Yaml.Node

/-- The text of the document that holds a value. -/
def Yaml.writeDocument (v : Value) : Except Fault (List Char) := (Node.ofValue v).map Node.render

end TrainingCollar
