import TrainingCollar.Yaml.Node

/-! # Aliases and merges

Two abbreviations of a document are written out before its content is built. `expand` puts the node
with an anchor in place of each alias to it; only inside the node itself the alias stays, since that
node contains itself. `merge` puts the entries of other mappings in place of each merge key.
-/

namespace TrainingCollar.Yaml.Node

/-! ## Aliases -/

mutual

/-- The node with another one in place of each alias to an anchor. -/
def replace (name : String) (other : Node) : Node → Node
  | .alias n => if n = name then other else .alias n
  | .scalar anchor tag text => .scalar anchor tag text
  | .sequence anchor tag items => .sequence anchor tag (replaceAll name other items)
  | .mapping anchor tag pairs => .mapping anchor tag (replacePairs name other pairs)

/-- `replace` in each item. -/
def replaceAll (name : String) (other : Node) : List Node → List Node
  | [] => []
  | item :: rest => replace name other item :: replaceAll name other rest

/-- `replace` in each pair. -/
def replacePairs (name : String) (other : Node) : List (Node × Node) → List (Node × Node)
  | [] => []
  | (key, value) :: rest =>
    (replace name other key, replace name other value) :: replacePairs name other rest

end

/-- The nodes known by their anchors. -/
abbrev Known := List (String × Node)

/-- Whether an anchor is neither known nor that of a node around. -/
def isNew (known : Known) (around : List String) : Option String → Bool
  | none => true
  | some name => !known.any (·.1 == name) && !around.contains name

/-- The known nodes with a finished one. Nodes inside it that mention it now hold it. -/
def remember (known : Known) (anchor : Option String) (node : Node) : Known :=
  match anchor with
  | none => known
  | some name => (name, node) :: known.map fun (n, inner) => (n, replace name node inner)

mutual

/-- The node without aliases, except to nodes around the alias itself, and the nodes known after it.
An anchor must be new, and an alias must name a node that has started before. -/
def expand (known : Known) (around : List String) : Node → Except Fault (Node × Known)
  | .alias name =>
    match known.find? (·.1 == name) with
    | some (_, node) => .ok (node, known)
    | none => if around.contains name then .ok (.alias name, known) else .error .malformed
  | .scalar anchor tag text =>
    if isNew known around anchor then
      .ok (.scalar anchor tag text, remember known anchor (.scalar anchor tag text))
    else .error .malformed
  | .sequence anchor tag items =>
    if isNew known around anchor then do
      let (items, known) ← expandAll known (anchor.toList ++ around) items
      return (.sequence anchor tag items, remember known anchor (.sequence anchor tag items))
    else .error .malformed
  | .mapping anchor tag pairs =>
    if isNew known around anchor then do
      let (pairs, known) ← expandPairs known (anchor.toList ++ around) pairs
      return (.mapping anchor tag pairs, remember known anchor (.mapping anchor tag pairs))
    else .error .malformed

/-- `expand` for each item, one after the other. -/
def expandAll (known : Known) (around : List String) :
    List Node → Except Fault (List Node × Known)
  | [] => .ok ([], known)
  | item :: rest => do
    let (item, known) ← expand known around item
    let (rest, known) ← expandAll known around rest
    return (item :: rest, known)

/-- `expand` for each key and value, one after the other. -/
def expandPairs (known : Known) (around : List String) :
    List (Node × Node) → Except Fault (List (Node × Node) × Known)
  | [] => .ok ([], known)
  | (key, value) :: rest => do
    let (key, known) ← expand known around key
    let (value, known) ← expand known around value
    let (rest, known) ← expandPairs known around rest
    return ((key, value) :: rest, known)

end

/-! ## Merges -/

/-- The tag of a node; an alias has none. -/
def tag? : Node → Option Tag
  | .alias _ => none
  | .scalar _ tag _ | .sequence _ tag _ | .mapping _ tag _ => some tag

/-- The entries that a merge key with this value stands for: those of a mapping, or of each mapping in
a sequence, where the first one has priority and so comes last. A mapping around the key has nothing to
add to itself. -/
def mergeable? : Node → Option (List (Node × Node))
  | .mapping _ _ pairs => some pairs
  | .sequence _ _ items => joinLast items
  | .alias _ => some []
  | .scalar .. => none
where
  /-- The entries of each mapping, those of the last mapping first. -/
  joinLast : List Node → Option (List (Node × Node))
    | [] => some []
    | .mapping _ _ pairs :: rest => (joinLast rest).map (· ++ pairs)
    | .alias _ :: rest => joinLast rest
    | _ :: _ => none

/-- The entries that all merge keys of a mapping stand for. -/
def mergedEntries? : List (Node × Node) → Option (List (Node × Node))
  | [] => some []
  | (key, value) :: rest =>
    if key.tag? = some .merge then
      match value.mergeable?, mergedEntries? rest with
      | some first, some others => some (first ++ others)
      | _, _ => none
    else mergedEntries? rest

/-- The mapping with merged entries before its own, which replace them. What cannot be merged is no
mapping. -/
def mergeEntries (anchor : Option String) (tag : Tag) (pairs : List (Node × Node)) : Node :=
  match mergedEntries? pairs with
  | some merged =>
    .mapping anchor tag (merged ++ pairs.filter fun (key, _) => key.tag? != some .merge)
  | none => .scalar anchor .map []

mutual

/-- The node without merge keys. -/
def merge : Node → Node
  | .alias name => .alias name
  | .scalar anchor tag text => .scalar anchor tag text
  | .sequence anchor tag items => .sequence anchor tag (mergeAll items)
  | .mapping anchor tag pairs => mergeEntries anchor tag (mergePairs pairs)

/-- `merge` for each item. -/
def mergeAll : List Node → List Node
  | [] => []
  | item :: rest => merge item :: mergeAll rest

/-- `merge` for each key and value. -/
def mergePairs : List (Node × Node) → List (Node × Node)
  | [] => []
  | (key, value) :: rest => (merge key, merge value) :: mergePairs rest

end

end TrainingCollar.Yaml.Node
