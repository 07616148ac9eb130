/-! # Tokens

The tokens of a document. Indentation has become explicit: block collections have starts and ends of
their own.
-/

namespace TrainingCollar.Yaml

/-- What a directive line says. -/
inductive Directive where
  | version (major : Nat)
  | tagHandle (handle uri : String)
  | other
deriving DecidableEq, Repr

/-- A token of a document. -/
inductive Token where
  | directive (d : Directive)
  | documentStart
  | documentEnd
  | streamEnd
  | sequenceStart
  | mappingStart
  | blockEnd
  | flowSequenceStart
  | flowSequenceEnd
  | flowMappingStart
  | flowMappingEnd
  /-- The dash before an item. -/
  | item
  | comma
  | key
  | value
  | alias (name : String)
  | anchor (name : String)
  /-- A tag in short form, or in full without a handle. -/
  | tag (handle : Option String) (suffix : String)
  | scalar (plain : Bool) (text : List Char)
deriving DecidableEq, Repr

end TrainingCollar.Yaml
