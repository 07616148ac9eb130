import TrainingCollar.Proofs.Yaml.Tree
import TrainingCollar.Yaml.Content

/-! # What nodes stand for

A node represents a value if it is what the value is written as and the value is what the node is read
as. Scalars represent values one by one; sequences and mappings do if their parts do. A value that is
written as a sheet is therefore found again in the document: `IsSheet.readDocument_render`.
-/

namespace TrainingCollar.Yaml.Node

variable {node : Node} {v : Value} {items : List Node} {values : List Value}
  {pairs : List (Node × Node)} {entries : List (Value × Value)}

/-- The node that a value is written as, with nothing in it that stands for something else, and the
value it is read as. -/
structure Represents (node : Node) (v : Value) : Prop where
  written : ofValue v = .ok node
  expand : ∀ known around, node.expand known around = .ok (node, known)
  merge : node.merge = node
  faults : ∀ level, node.faults level = []
  build : ∀ around, node.build around = .ok v

/-- A word represents the value of its scalar. -/
theorem represents_scalar {tag : Tag} {text : List Char} (written : ofValue v = .ok (.scalar none tag text))
    (scalar : tag.isCollection = false) (read : readScalar tag text = .ok v) :
    (Node.scalar none tag text).Represents v where
  written := written
  expand _ _ := rfl
  merge := rfl
  faults level := by rw [Node.faults, scalar, read]; rfl
  build around := read

/-! ## Sequences -/

section Sequence

variable (represent : List.Forall₂ Represents items values)
include represent

theorem ofItems_of_represent : ofItems values = .ok items := by
  induction represent with
  | nil => rfl
  | cons first _ ih =>
    rw [ofItems, first.written, ih]
    rfl

theorem expandAll_of_represent (known : Known) (around : List String) :
    expandAll known around items = .ok (items, known) := by
  induction represent with
  | nil => rfl
  | cons first _ ih =>
    rw [expandAll, first.expand]
    show (expandAll known around _ >>= fun rest => pure (_ :: rest.1, rest.2)) = _
    rw [ih]
    rfl

theorem mergeAll_of_represent : mergeAll items = items := by
  induction represent with
  | nil => rfl
  | cons first _ ih => rw [mergeAll, first.merge, ih]

theorem faultsOfItems_of_represent (level : Nat) : faultsOfItems level items = [] := by
  induction represent with
  | nil => rfl
  | cons first _ ih => rw [faultsOfItems, first.faults, ih, List.append_nil]

theorem buildItems_of_represent (around : Around) : buildItems around items = .ok values := by
  induction represent with
  | nil => rfl
  | cons first _ ih =>
    rw [buildItems, first.build, ih]
    rfl

theorem represents_list : (Node.sequence none .seq items).Represents (.list values) where
  written := by
    rw [ofValue, ofItems_of_represent represent]
    rfl
  expand known around := by
    show (expandAll known around items >>= fun read => pure (Node.sequence none .seq read.1, read.2)) = _
    rw [expandAll_of_represent represent]
    rfl
  merge := congrArg (Node.sequence none .seq) (mergeAll_of_represent represent)
  faults level := faultsOfItems_of_represent represent (level + 1)
  build around := by
    show (buildItems around items).map _ = _
    rw [buildItems_of_represent represent]
    rfl

end Sequence

/-! ## Mappings -/

/-- No two keys are equal. -/
def Distinct (entries : List (Value × Value)) : Prop :=
  entries.Pairwise fun a b => a.1.same b.1 = false

theorem foldl_insert_of_distinct (entries known : List (Value × Value))
    (distinct : Distinct (known ++ entries)) :
    entries.foldl (fun entries (key, value) => Value.insert entries key value) known =
      known ++ entries := by
  induction entries generalizing known with
  | nil => rw [List.foldl_nil, List.append_nil]
  | cons entry rest ih =>
    obtain ⟨key, value⟩ := entry
    have new : ¬(known.any fun other => other.1.same key) = true := by
      rw [Bool.not_eq_true, List.any_eq_false]
      intro other member
      rw [Bool.not_eq_true]
      exact (List.pairwise_append.mp distinct).2.2 other member (key, value) List.mem_cons_self
    have inserted : Value.insert known key value = known ++ [(key, value)] := if_neg new
    show rest.foldl _ (Value.insert known key value) = _
    rw [inserted, ih, List.append_assoc, List.singleton_append]
    rwa [List.append_assoc, List.singleton_append]

/-- Entries under keys that differ are all kept. -/
theorem ofPairs?_of_distinct (keys : entries.all (fun entry => entry.1.isKey) = true)
    (distinct : Distinct entries) : Value.ofPairs? entries = some entries := by
  rw [Value.ofPairs?, if_pos keys]
  exact congrArg some (foldl_insert_of_distinct entries [] distinct)

/-- A name and a content with what they are written as. -/
structure RepresentsEntry (pair : Node × Node) (entry : Value × Value) : Prop where
  key : ∃ name : String, IsNameText name.toList ∧ pair.1 = ofWord name.toList ∧ entry.1 = .text name
  content : pair.2.Represents entry.2

theorem represents_name {name : String} (isName : IsNameText name.toList) :
    (ofWord name.toList).Represents (.text name) := by
  rw [ofWord, isName.isText]
  refine represents_scalar rfl rfl ?_
  rw [readScalar, String.ofList_toList]

variable {pair : Node × Node} {entry : Value × Value}

theorem RepresentsEntry.key_represents (represents : RepresentsEntry pair entry) :
    pair.1.Represents entry.1 := by
  obtain ⟨name, isName, isKey, isText⟩ := represents.key
  rw [isKey, isText]
  exact represents_name isName

theorem RepresentsEntry.readKey (represents : RepresentsEntry pair entry) :
    Node.readKey pair.1 = .ok entry.1 := by
  obtain ⟨name, isName, isKey, isText⟩ := represents.key
  rw [isKey, isText, ofWord, isName.isText]
  show readScalar .str name.toList = _
  rw [readScalar, String.ofList_toList]

theorem RepresentsEntry.no_merge (represents : RepresentsEntry pair entry) :
    pair.1.tag? ≠ some .merge := by
  obtain ⟨name, isName, isKey, _⟩ := represents.key
  rw [isKey, ofWord, isName.isText]
  intro same
  cases same

section Mapping

variable (represent : List.Forall₂ RepresentsEntry pairs entries)
include represent

theorem ofEntries_of_represent : ofEntries entries = .ok pairs := by
  induction represent with
  | nil => rfl
  | cons first _ ih =>
    rw [ofEntries, first.key_represents.written, first.content.written, ih]
    rfl

theorem expandPairs_of_represent (known : Known) (around : List String) :
    expandPairs known around pairs = .ok (pairs, known) := by
  induction represent with
  | nil => rfl
  | @cons pair _ rest _ first _ ih =>
    rw [expandPairs, first.key_represents.expand]
    show (Node.expand known around pair.2 >>= fun value => expandPairs value.2 around rest >>= fun rest =>
      pure ((pair.1, value.1) :: rest.1, rest.2)) = _
    rw [first.content.expand]
    show (expandPairs known around rest >>= fun rest => pure ((pair.1, pair.2) :: rest.1, rest.2)) = _
    rw [ih]
    rfl

theorem mergePairs_of_represent : mergePairs pairs = pairs := by
  induction represent with
  | nil => rfl
  | cons first _ ih => rw [mergePairs, first.key_represents.merge, first.content.merge, ih]

theorem mergedEntries?_of_represent : mergedEntries? pairs = some [] := by
  induction represent with
  | nil => rfl
  | cons first _ ih => rw [mergedEntries?, if_neg first.no_merge, ih]

theorem ownEntries_of_represent :
    pairs.filter (fun pair => pair.1.tag? != some .merge) = pairs := by
  induction represent with
  | nil => rfl
  | cons first _ ih => rw [List.filter_cons, if_pos (bne_iff_ne.mpr first.no_merge), ih]

theorem faultsOfPairs_of_represent (level : Nat) : faultsOfPairs level pairs = [] := by
  induction represent with
  | nil => rfl
  | cons first _ ih =>
    rw [faultsOfPairs, first.readKey, first.content.faults, ih]
    rfl

theorem buildPairs_of_represent (around : Around) : buildPairs around pairs = .ok entries := by
  induction represent with
  | nil => rfl
  | cons first _ ih =>
    rw [buildPairs, first.readKey, first.content.build, ih]
    rfl

theorem isKey_of_represent : entries.all (fun entry => entry.1.isKey) = true := by
  induction represent with
  | nil => rfl
  | cons first _ ih =>
    obtain ⟨_, _, _, isText⟩ := first.key
    rw [List.all_cons, ih, isText]
    rfl

theorem represents_map (distinct : Distinct entries) :
    (Node.mapping none .map pairs).Represents (.map entries) where
  written := by
    rw [ofValue, ofEntries_of_represent represent]
    rfl
  expand known around := by
    show (expandPairs known around pairs >>= fun read => pure (Node.mapping none .map read.1, read.2)) = _
    rw [expandPairs_of_represent represent]
    rfl
  merge := by
    rw [Node.merge, mergePairs_of_represent represent, mergeEntries, mergedEntries?_of_represent represent]
    exact congrArg (Node.mapping none .map) (ownEntries_of_represent represent)
  faults level := faultsOfPairs_of_represent represent (level + 1)
  build around := by
    show (buildPairs around pairs >>= fun entries => mapOf entries >>= fun entries =>
      pure (knotted none (.map entries))) = _
    rw [buildPairs_of_represent represent]
    show (mapOf entries >>= fun entries => pure (knotted none (.map entries))) = _
    rw [mapOf, ofPairs?_of_distinct (isKey_of_represent represent) distinct]
    rfl

end Mapping

/-! ## Documents -/

/-- The content of a node without aliases and merge keys. -/
theorem Represents.content (represents : node.Represents v) : node.content = .ok v := by
  simp only [Node.content, represents.expand, bind, Except.bind, represents.merge, represents.faults]
  exact represents.build []

/-- A value that is written as a sheet is the content of its document. -/
theorem IsSheet.readDocument_render (sheet : IsSheet node) (represents : node.Represents v) :
    writeDocument v = .ok node.render ∧ readDocument node.render = .ok v := by
  constructor
  · rw [writeDocument, represents.written]
    rfl
  · rw [readDocument, sheet.documentOf_render]
    exact represents.content

end TrainingCollar.Yaml.Node
