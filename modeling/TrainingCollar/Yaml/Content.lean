import TrainingCollar.Value.Order
import TrainingCollar.Yaml.Alias

/-! # The content of a document

`Node.build` gives the value that a node stands for. A document is visited level by level: the scalars
of a level are read before the collections below it are entered, so of several faults the one that
counts is the first of the least level. `readDocument` is the whole way from a text to its value.
-/

namespace TrainingCollar.Yaml

/-- Whether a tag is that of a collection. -/
def Tag.isCollection : Tag → Bool
  | .seq | .map | .set | .omap | .pairs => true
  | _ => false

namespace Node

mutual

/-- The text that a mapping under a scalar's tag stands for: the one under its value key. -/
def textOf? : Node → Option (List Char)
  | .scalar _ _ text => some text
  | .mapping _ _ pairs => textOfPairs? pairs
  | _ => none

/-- The text under the value key of a list of pairs. -/
def textOfPairs? : List (Node × Node) → Option (List Char)
  | [] => none
  | (key, value) :: rest => if key.tag? = some .value then textOf? value else textOfPairs? rest

end

/-- The value of a mapping under a scalar's tag. -/
def readText (tag : Tag) (text : Option (List Char)) : Except Fault Value :=
  match tag, text with
  | .timestamp, some _ => .error .wrongKind
  | tag, some text => readScalar tag text
  | _, none => .error .malformed

/-- The tag of a node as a key. The value key of a mapping is a text. -/
def keyTag (tag : Tag) : Tag := if tag = .value then .str else tag

/-- The value of a key. No collection can be a key. -/
def readKey : Node → Except Fault Value
  | .scalar _ tag text => readScalar (keyTag tag) text
  | .mapping _ tag pairs =>
    if tag.isCollection then .error .malformed else readText tag (textOfPairs? pairs)
  | _ => .error .malformed

/-- A fault with the level at which it is found. -/
abbrev Found := Nat × Fault

/-- A fault found at a level, if there is one. -/
def found (level : Nat) {α : Type} : Except Fault α → List Found
  | .ok _ => []
  | .error fault => [(level, fault)]

/-- A document that is malformed at a level. -/
def malformedAt (level : Nat) : List Found := [(level, .malformed)]

mutual

/-- The faults of a node at a level, in the order of the document. -/
def faults (level : Nat) : Node → List Found
  | .alias _ => []
  | .scalar _ tag text =>
    if tag.isCollection then malformedAt (level + 1) else found level (readScalar tag text)
  | .sequence _ tag items =>
    match tag with
    | .seq => faultsOfItems (level + 1) items
    | .omap | .pairs => faultsOfTuples (level + 1) items
    | .map | .set => malformedAt (level + 1)
    | _ => malformedAt level
  | .mapping _ tag pairs =>
    match tag with
    | .map | .set => faultsOfPairs (level + 1) pairs
    | .seq | .omap | .pairs => malformedAt (level + 1)
    | tag => found level (readText tag (textOfPairs? pairs))

/-- The faults of the items of a sequence. -/
def faultsOfItems (level : Nat) : List Node → List Found
  | [] => []
  | item :: rest => faults level item ++ faultsOfItems level rest

/-- The faults of the items of a sequence of entries. Each item is a mapping with one entry. -/
def faultsOfTuples (level : Nat) : List Node → List Found
  | [] => []
  | .mapping _ _ [(key, value)] :: rest =>
    faults level key ++ (faults level value ++ faultsOfTuples level rest)
  | _ :: _ => malformedAt level

/-- The faults of the entries of a mapping. -/
def faultsOfPairs (level : Nat) : List (Node × Node) → List Found
  | [] => []
  | (key, value) :: rest =>
    found level (readKey key) ++ (faults level value ++ faultsOfPairs level rest)

end

/-- The first fault of the least level. -/
def firstFault? : List Found → Option Found
  | [] => none
  | first :: rest =>
    match firstFault? rest with
    | some other => if other.1 < first.1 then some other else some first
    | none => some first

/-- The collections around a node that have an anchor, with whether each is a mapping. -/
abbrev Around := List (String × Bool)

/-- A collection; one that contains itself is a knot. -/
def knotted (anchor : Option String) (value : Value) : Value :=
  match anchor with
  | some name => if value.mentions name then .knot name value else value
  | none => value

/-- A collection with an anchor, added to those around. -/
def enter (around : Around) (anchor : Option String) (isMap : Bool) : Around :=
  match anchor with
  | some name => (name, isMap) :: around
  | none => around

/-- The mapping with these entries, all of which have to have keys. -/
def mapOf (pairs : List (Value × Value)) : Except Fault (List (Value × Value)) :=
  match Value.ofPairs? pairs with
  | some entries => .ok entries
  | none => .error .malformed

mutual

/-- The value of a node. -/
def build (around : Around) : Node → Except Fault Value
  | .alias name => .ok (.again name (around.any fun (other, isMap) => other == name && isMap))
  | .scalar _ tag text => readScalar tag text
  | .sequence anchor tag items =>
    match tag with
    | .seq => (buildItems (enter around anchor false) items).map (knotted anchor ∘ .list)
    | .omap | .pairs => (buildTuples (enter around anchor false) items).map (knotted anchor ∘ .list)
    | _ => .error .malformed
  | .mapping anchor tag pairs =>
    match tag with
    | .map => do
      let entries ← mapOf (← buildPairs (enter around anchor true) pairs)
      return knotted anchor (.map entries)
    | .set => do
      let entries ← mapOf (← buildPairs (enter around anchor true) pairs)
      return .set (entries.map Prod.fst)
    | tag => readText tag (textOfPairs? pairs)

/-- The values of the items of a sequence. -/
def buildItems (around : Around) : List Node → Except Fault (List Value)
  | [] => .ok []
  | item :: rest => do
    let item ← build around item
    let rest ← buildItems around rest
    return item :: rest

/-- The values of the items of a sequence of entries. -/
def buildTuples (around : Around) : List Node → Except Fault (List Value)
  | [] => .ok []
  | .mapping _ _ [(key, value)] :: rest => do
    let key ← build around key
    let value ← build around value
    let rest ← buildTuples around rest
    return .tuple [key, value] :: rest
  | _ :: _ => .error .malformed

/-- The keys and values of a mapping. -/
def buildPairs (around : Around) : List (Node × Node) → Except Fault (List (Value × Value))
  | [] => .ok []
  | (key, value) :: rest => do
    let key ← readKey key
    let value ← build around value
    let rest ← buildPairs around rest
    return (key, value) :: rest

end

/-- The value of the root of a document. -/
def content (root : Node) : Except Fault Value := do
  let (root, _) ← root.expand [] []
  match firstFault? (root.merge.faults 0) with
  | some (_, fault) => .error fault
  | none => root.merge.build []

end Node

/-- The value of a document. One without content holds nothing. -/
def readDocument (text : List Char) : Except Fault Value := do
  match ← documentOf text with
  | some root => root.content
  | none => return .null

end TrainingCollar.Yaml
