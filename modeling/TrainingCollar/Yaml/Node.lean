import TrainingCollar.Yaml.Lexer

/-! # Nodes

A document is a tree of nodes. Each node has a tag, which follows from its form unless the document
sets one, and may have an anchor; an alias stands for the node with its anchor. `documentOf` reads the
only document of a text, if there is one.
-/

namespace TrainingCollar.Yaml

/-- A node of a document. -/
inductive Node where
  | alias (name : String)
  | scalar (anchor : Option String) (tag : Tag) (text : List Char)
  | sequence (anchor : Option String) (tag : Tag) (items : List Node)
  | mapping (anchor : Option String) (tag : Tag) (pairs : List (Node × Node))

namespace Node

/-- The node for nothing. -/
def empty : Node := .scalar none .null []

/-- What comes before a node: an anchor and a tag. -/
structure Properties where
  anchor : Option String
  /-- The uniform name of the tag, or an exclamation mark. -/
  tag : Option String

/-- The handles that need no directive. -/
def commonHandles : List (String × String) := [("!", "!"), ("!!", coreUri)]

/-- The uniform name of a tag, or an exclamation mark alone. -/
def resolveTag (handles : List (String × String)) (handle : Option String) (suffix : String) :
    Except Fault String :=
  match handle with
  | none => .ok suffix
  | some handle =>
    match (handles ++ commonHandles).find? (·.1 == handle) with
    | some (_, start) => .ok (start ++ suffix)
    | none => .error .malformed

/-- The anchor and the tag before a node, in either order. -/
def readProperties (handles : List (String × String)) (tokens : List Token) :
    Except Fault (Properties × List Token) :=
  match tokens with
  | .anchor name :: .tag handle suffix :: rest => do
    return (⟨some name, some (← resolveTag handles handle suffix)⟩, rest)
  | .tag handle suffix :: .anchor name :: rest => do
    return (⟨some name, some (← resolveTag handles handle suffix)⟩, rest)
  | .anchor name :: rest => return (⟨some name, none⟩, rest)
  | .tag handle suffix :: rest => do
    return (⟨none, some (← resolveTag handles handle suffix)⟩, rest)
  | rest => return (⟨none, none⟩, rest)

/-- The tag of a scalar. One that is not plain is a text, unless an exclamation mark asks for the tag
that its form has. -/
def scalarTag (tag : Option String) (plain : Bool) (text : List Char) : Tag :=
  match tag with
  | none => if plain then .ofPlain text else .str
  | some uri => if uri = "!" then .ofForm text else .ofUri uri

/-- The tag of a collection. -/
def collectionTag (tag : Option String) (usual : Tag) : Tag :=
  match tag with
  | none => usual
  | some uri => if uri = "!" then usual else .ofUri uri

/-- Whether a list of tokens starts with one of these. -/
def startsWith (choices : List Token) (tokens : List Token) : Bool :=
  match tokens with
  | token :: _ => choices.contains token
  | [] => true

/-- Where a node stands: what may start it. -/
inductive Place where
  /-- Inside brackets. -/
  | flow
  /-- Outside of brackets. -/
  | block
  /-- A key or a value of a block mapping, whose items need no indentation. -/
  | entry
deriving DecidableEq

mutual

/-- Reads a node. -/
def read (handles : List (String × String)) : Nat → Place → List Token → Except Fault (Node × List Token)
  | 0, _, _ => .error .malformed
  | _ + 1, _, .alias name :: rest => .ok (.alias name, rest)
  | fuel + 1, place, tokens => do
    let (properties, tokens) ← readProperties handles tokens
    let sequence (items : List Node) : Node :=
      .sequence properties.anchor (collectionTag properties.tag .seq) items
    let mapping (pairs : List (Node × Node)) : Node :=
      .mapping properties.anchor (collectionTag properties.tag .map) pairs
    match tokens with
    | .scalar plain text :: rest =>
      return (.scalar properties.anchor (scalarTag properties.tag plain text) text, rest)
    | .flowSequenceStart :: rest => do
      let (items, rest) ← readFlowItems handles fuel true rest
      return (sequence items, rest)
    | .flowMappingStart :: rest => do
      let (pairs, rest) ← readFlowPairs handles fuel true rest
      return (mapping pairs, rest)
    | .sequenceStart :: rest =>
      if place = .flow then .error .malformed
      else do
        let (items, rest) ← readItems handles fuel rest
        return (sequence items, rest)
    | .mappingStart :: rest =>
      if place = .flow then .error .malformed
      else do
        let (pairs, rest) ← readPairs handles fuel rest
        return (mapping pairs, rest)
    | .item :: _ =>
      if place = .entry then do
        let (items, rest) ← readOpenItems handles fuel tokens
        return (sequence items, rest)
      else if properties.anchor.isSome || properties.tag.isSome then
        return (.scalar properties.anchor (scalarTag properties.tag true []) [], tokens)
      else .error .malformed
    | _ =>
      if properties.anchor.isSome || properties.tag.isSome then
        return (.scalar properties.anchor (scalarTag properties.tag true []) [], tokens)
      else .error .malformed

/-- Reads a node, or nothing if one of these tokens comes next. -/
def readUnless (handles : List (String × String)) :
    Nat → Place → List Token → List Token → Except Fault (Node × List Token)
  | 0, _, _, _ => .error .malformed
  | fuel + 1, place, stops, tokens =>
    if startsWith stops tokens then .ok (.empty, tokens) else read handles fuel place tokens

/-- Reads the items of a block sequence and its end. -/
def readItems (handles : List (String × String)) : Nat → List Token → Except Fault (List Node × List Token)
  | fuel + 1, .item :: rest => do
    let (first, rest) ← readUnless handles fuel .block [.item, .blockEnd] rest
    let (others, rest) ← readItems handles fuel rest
    return (first :: others, rest)
  | _, .blockEnd :: rest => .ok ([], rest)
  | _, _ => .error .malformed

/-- Reads the items of a sequence that is not indented, up to what is no item. -/
def readOpenItems (handles : List (String × String)) : Nat → List Token → Except Fault (List Node × List Token)
  | fuel + 1, .item :: rest => do
    let (first, rest) ← readUnless handles fuel .block [.item, .key, .value, .blockEnd] rest
    let (others, rest) ← readOpenItems handles fuel rest
    return (first :: others, rest)
  | 0, .item :: _ => .error .malformed
  | _, rest => .ok ([], rest)

/-- Reads the entries of a block mapping and its end. -/
def readPairs (handles : List (String × String)) : Nat → List Token → Except Fault (List (Node × Node) × List Token)
  | fuel + 1, .key :: rest => do
    let (key, rest) ← readUnless handles fuel .entry [.key, .value, .blockEnd] rest
    let (value, rest) ← readValue handles fuel .entry [.key, .value, .blockEnd] rest
    let (others, rest) ← readPairs handles fuel rest
    return ((key, value) :: others, rest)
  | _, .blockEnd :: rest => .ok ([], rest)
  | _, _ => .error .malformed

/-- Reads what follows a key: a colon and a node, or nothing. -/
def readValue (handles : List (String × String)) :
    Nat → Place → List Token → List Token → Except Fault (Node × List Token)
  | fuel + 1, place, stops, .value :: rest => readUnless handles fuel place stops rest
  | 0, _, _, .value :: _ => .error .malformed
  | _, _, _, rest => .ok (.empty, rest)

/-- Reads the items of a sequence in brackets and the bracket that ends it. An item with a key is a
mapping of one entry. -/
def readFlowItems (handles : List (String × String)) :
    Nat → (first : Bool) → List Token → Except Fault (List Node × List Token)
  | 0, _, _ => .error .malformed
  | fuel + 1, first, tokens =>
    if startsWith [.flowSequenceEnd] tokens then .ok ([], tokens.tail)
    else do
      let tokens ← if first then .ok tokens
        else if startsWith [.comma] tokens then .ok tokens.tail else .error .malformed
      match tokens with
      | .flowSequenceEnd :: rest => return ([], rest)
      | .key :: rest => do
        let (key, rest) ← readUnless handles fuel .flow [.value, .comma, .flowSequenceEnd] rest
        let (value, rest) ← readValue handles fuel .flow [.comma, .flowSequenceEnd] rest
        let (others, rest) ← readFlowItems handles fuel false rest
        return (.mapping none .map [(key, value)] :: others, rest)
      | _ => do
        let (item, rest) ← read handles fuel .flow tokens
        let (others, rest) ← readFlowItems handles fuel false rest
        return (item :: others, rest)

/-- Reads the entries of a mapping in braces and the brace that ends it. An item without a key is the
key of an entry without a value. -/
def readFlowPairs (handles : List (String × String)) :
    Nat → (first : Bool) → List Token → Except Fault (List (Node × Node) × List Token)
  | 0, _, _ => .error .malformed
  | fuel + 1, first, tokens =>
    if startsWith [.flowMappingEnd] tokens then .ok ([], tokens.tail)
    else do
      let tokens ← if first then .ok tokens
        else if startsWith [.comma] tokens then .ok tokens.tail else .error .malformed
      match tokens with
      | .flowMappingEnd :: rest => return ([], rest)
      | .key :: rest => do
        let (key, rest) ← readUnless handles fuel .flow [.value, .comma, .flowMappingEnd] rest
        let (value, rest) ← readValue handles fuel .flow [.comma, .flowMappingEnd] rest
        let (others, rest) ← readFlowPairs handles fuel false rest
        return ((key, value) :: others, rest)
      | _ => do
        let (key, rest) ← read handles fuel .flow tokens
        let (others, rest) ← readFlowPairs handles fuel false rest
        return ((key, .empty) :: others, rest)

end

end Node

/-! ## Documents -/

/-- The handles that the directives before a document define. A handle or a version must not be given
twice, and the version must be the first. -/
def handlesOf : (version : Bool) → (handles : List (String × String)) → List Token →
    Except Fault (List (String × String) × List Token)
  | version, handles, .directive d :: rest =>
    match d with
    | .version major =>
      if version || major != 1 then .error .malformed else handlesOf true handles rest
    | .tagHandle handle uri =>
      if handles.any (·.1 == handle) then .error .malformed
      else handlesOf version ((handle, uri) :: handles) rest
    | .other => handlesOf version handles rest
  | _, handles, tokens => .ok (handles, tokens)

/-- Nothing may follow a document but marks of its end. -/
def endDocument (tokens : List Token) : Except Fault Unit :=
  match tokens.dropWhile (· == .documentEnd) with
  | [.streamEnd] => .ok ()
  | _ => .error .malformed

/-- Reads the content of a document that starts with a mark. It may be missing. -/
def readContent (handles : List (String × String)) (fuel : Nat) (tokens : List Token) :
    Except Fault (Node × List Token) :=
  match tokens with
  | .directive _ :: _ | .documentStart :: _ | .documentEnd :: _ | .streamEnd :: _ =>
    .ok (.empty, tokens)
  | _ => Node.read handles fuel .block tokens

/-- The only document of a list of tokens, if there is one. -/
def documentOfTokens (tokens : List Token) : Except Fault (Option Node) :=
  let fuel := 4 * tokens.length + 4
  match tokens with
  | [.streamEnd] => .ok none
  | .directive _ :: _ | .documentStart :: _ => do
    let (handles, rest) ← handlesOf false [] tokens
    match rest with
    | .documentStart :: rest => do
      let (root, rest) ← readContent handles fuel rest
      endDocument rest
      return some root
    | _ => .error .malformed
  | _ => do
    let (root, rest) ← Node.read [] fuel .block tokens
    endDocument rest
    return some root

/-- The only document of a text, if there is one. -/
def documentOf (text : List Char) : Except Fault (Option Node) := do
  documentOfTokens (← tokensOf text)

end TrainingCollar.Yaml
