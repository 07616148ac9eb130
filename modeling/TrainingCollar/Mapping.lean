import TrainingCollar.Fault
import TrainingCollar.Value.Order

/-! # Steps and configurations as mappings

`toMap` is the way back from coercion: a step or a configuration as a mapping from the names of its
fields to plain contents, choices by name and ranges as lists.
-/

namespace TrainingCollar

/-- The name of a choice; other values have none. -/
def nameOf (value : Value) : Except Fault String :=
  match value with
  | .choice c => .ok c.name
  | _ => .error .noPart

/-- The items of a value that can be run through. -/
def itemsOf (value : Value) : Except Fault (List Value) :=
  match value.items? with
  | some items => .ok items
  | none => .error .wrongKind

/-- A range written out as a list, unless an integer in it is beyond the limit of digits. -/
def rangeText (value : Value) : Except Fault String := do
  let items ← itemsOf value
  if (Value.list items).hasText then return (Value.list items).literal else .error .badValue

/-- Contents under names, as a mapping. -/
def namedMap (entries : List (String × Value)) : Value :=
  .map (entries.map fun (name, content) => (.text name, content))

namespace Step

/-- The contents of a step in the order of its fields. -/
def contents (s : Step) : Except Fault (List (StepField × Value)) := do
  let kind ← nameOf s.kind
  let timeMode ← nameOf s.timeMode
  let time ← itemsOf s.time
  let strengthMode ← nameOf s.strengthMode
  let strength ← itemsOf s.strength
  return [(.kind, .text kind), (.startDelay, s.startDelay), (.endDelay, s.endDelay),
    (.timeMode, .text timeMode), (.time, .list time), (.strengthMode, .text strengthMode),
    (.strength, .list strength)]

/-- A step as a mapping. -/
def toMap (s : Step) : Except Fault Value := do
  let contents ← s.contents
  return namedMap (contents.map fun (field, content) => (field.name, content))

/-- A step in one line, as the records of its coming and going show it. -/
def brief (s : Step) : Except Fault String := do
  let kind ← nameOf s.kind
  let timeMode ← nameOf s.timeMode
  let time ← rangeText s.time
  let strengthMode ← nameOf s.strengthMode
  let strength ← rangeText s.strength
  return kind ++ "(time=" ++ timeMode ++ time ++ ", strength=" ++ strengthMode ++ strength ++ ")"

end Step

/-- A scalar content of a configuration: a choice by its name, anything else as it is. -/
def scalarContent : Value → Value
  | .choice c => .text c.name
  | v => v

mutual

/-- A value as an item of a step sequence: a step or a configuration as a mapping. -/
def itemToMap : Value → Except Fault Value
  | .step s => Step.toMap s
  | .settings s => settingsToMap s
  | _ => .error .noPart

/-- Each item as a mapping. -/
def itemsToMap : List Value → Except Fault (List Value)
  | [] => .ok []
  | item :: rest => do
    let first ← itemToMap item
    let others ← itemsToMap rest
    return first :: others

/-- The content of a field that holds steps: its items as mappings, or the name of a choice. -/
def sequenceContent : Value → Except Fault Value
  | .choice c => .ok (.text c.name)
  | .list items => (itemsToMap items).map .list
  | .tuple items => (itemsToMap items).map .list
  | .set items => (itemsToMap items).map .list
  | .map [] => .ok (.list [])
  | .text s => if s.isEmpty then .ok (.list []) else .error .noPart
  | .bytes content => if content.isEmpty then .ok (.list []) else .error .noPart
  | .map _ | .knot .. | .again .. => .error .noPart
  | _ => .error .wrongKind

/-- A configuration as a mapping. -/
def settingsToMap : SettingsOf Value → Except Fault Value
  | ⟨a, b, c, d, e, f, g, h, i, j, k, l, m, n, _⟩ => do
    let corrections ← sequenceContent m
    let affirmations ← sequenceContent n
    let scalars := [a, b, c, d, e, f, g, h, i, j, k, l].map scalarContent
    return namedMap (List.zipWith (fun field content => (field.name, content)) SettingField.all
      (scalars ++ [corrections, affirmations]))

end

namespace Settings

/-- A configuration as a mapping. -/
def toMap (s : Settings) : Except Fault Value := settingsToMap s

/-- The sequence that a key names. -/
def sequenceOf (key : Value) : Except Fault Sequence :=
  match Sequence.all.find? fun sequence => key.same (.text sequence.name) with
  | some sequence => .ok sequence
  | none => refuse (.unknownSequence key)

/-- What the field of a sequence holds. -/
def sequence (s : Settings) (which : Sequence) : Value := s.get (.steps which)

/-- The least and greatest strength of a stimulus; a beep has no strength. -/
def strengthBounds (s : Settings) : Stimulus → Option (Value × Value)
  | .shock => some (s.shockMin, s.shockMax)
  | .vibration => some (s.vibeMin, s.vibeMax)
  | .beep => none

end Settings

end TrainingCollar
