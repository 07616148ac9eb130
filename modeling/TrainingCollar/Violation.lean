import TrainingCollar.Value.Text

/-! # Violations

A violation says why a value cannot be the content of a field, or which invariant a step or a
configuration breaks. There is one constructor per cause; `message` words it and `field` names the
field to blame.
-/

namespace TrainingCollar

/-- The least strength a device accepts. -/
def deviceMin : Int := 0

/-- The greatest strength a device accepts. -/
def deviceMax : Int := 100

/-- The gain steps of the microphone. -/
def microphoneLevels : List Int := [26, 27, 28, 29]

/-- The reasons why a value, a step or a configuration is refused. -/
inductive Violation where
  /-- The value names no member of the family. -/
  | notMember (name : String) (family : Family) (value : Value)
  | notNumber (name : String) (value : Value)
  | notFinite (name : String) (value : Value)
  | notRange (name : String) (value : Value)
  | notStep (value : Value)
  | unknownStepFields (names : List String)
  | kindMissing
  | notSequence (name : String)
  /-- The cause lies in one step of a list of steps. -/
  | stepAt (name : String) (index : Nat) (cause : Violation)
  | notSettings (value : Value)
  | unknownFields (names : List String)
  | unknownSequence (key : Value)
  | notResolution (name : String) (value : Value)
  | rangeSize (name : String) (size : Nat)
  /-- Only a fixed range may have a single value. -/
  | loneValue (name : String) (mode : Resolution)
  | negativeValues (name : String) (values : List Value)
  | reversedRange (name : String) (low high : Value)
  | notStimulus (label : String) (value : Value)
  | negativeDelay (label : String)
  | reversedDelays (label : String) (start stop : Value)
  /-- The cause lies in one of the ranges of a step. -/
  | rangeOf (label : String) (cause : Violation)
  | strengthOutside (label : String) (values : List Value) (kind : Stimulus) (low high : Value)
  | reversedPair (low high : SettingField) (lowValue highValue : Value)
  | negativePeriod (field : SettingField)
  | outsideDevice (field : SettingField) (value : Value)
  | unsupportedMicrophone (value : Value)
  | notAlert (value : Value)
  /-- The document in a file is no mapping. -/
  | noMapping (path : String)

namespace Violation

/-- The names of all members of a family. -/
def memberNames (family : Family) : String := Value.commas (family.members.map Choice.name)

/-- A name with a position, as steps are labelled. -/
def label (name : String) (index : Nat) : String := name ++ "[" ++ toString index ++ "]"

/-- The wording of a violation. -/
def message : Violation → String
  | notMember name family value =>
    name ++ ": " ++ value.literal ++ " is not a valid " ++ family.title ++ " (expected one of " ++
      memberNames family ++ ")"
  | notNumber name value => name ++ ": expected a number, got " ++ value.literal
  | notFinite name value => name ++ ": expected a finite number, got " ++ value.literal
  | notRange name value =>
    name ++ ": expected a number or a [min, max] pair, got " ++ value.literal
  | notStep value => "event step must be a mapping, got " ++ value.kindName
  | unknownStepFields names => "Unknown event step field(s): " ++ Value.commas names
  | kindMissing => "event step requires a 'type'"
  | notSequence name => name ++ ": expected a list of event steps"
  | stepAt name index cause => label name index ++ ": " ++ cause.message
  | notSettings value => "settings must be a mapping, got " ++ value.kindName
  | unknownFields names => "Unknown settings field(s): " ++ Value.commas names
  | unknownSequence key =>
    "Unknown step sequence " ++ key.literal ++ " (expected one of " ++
      Value.commas (Sequence.all.map Sequence.name) ++ ")"
  | notResolution name value => name ++ "_type: " ++ value.literal ++ " is not a RangeType"
  | rangeSize name size => name ++ ": expected 1 or 2 values, got " ++ toString size
  | loneValue name mode =>
    name ++ ": a single value is only valid for FIXED ranges, not " ++ (Choice.resolution mode).name
  | negativeValues name values =>
    name ++ ": values must not be negative, got " ++ (Value.list values).literal
  | reversedRange name low high =>
    name ++ ": min " ++ low.plain ++ " is greater than max " ++ high.plain
  | notStimulus label value => label ++ ".type: " ++ value.literal ++ " is not an EventType"
  | negativeDelay label => label ++ ": delays must not be negative"
  | reversedDelays label start stop =>
    label ++ ": start_delay " ++ start.plain ++ " is greater than end_delay " ++ stop.plain
  | rangeOf label cause => label ++ "." ++ cause.message
  | strengthOutside label values kind low high =>
    label ++ ".strength_range: " ++ (Value.list values).literal ++ " outside " ++
      (Choice.stimulus kind).name ++ " bounds [" ++ low.plain ++ ", " ++ high.plain ++ "]"
  | reversedPair low high lowValue highValue =>
    low.name ++ " (" ++ lowValue.plain ++ ") must not be greater than " ++ high.name ++ " (" ++
      highValue.plain ++ ")"
  | negativePeriod field => field.name ++ " must not be negative"
  | outsideDevice field value =>
    field.name ++ " (" ++ value.plain ++ ") outside device range [" ++ toString deviceMin ++ ", " ++
      toString deviceMax ++ "]"
  | unsupportedMicrophone value =>
    "mic_sensitivity (" ++ value.literal ++ ") must be one of " ++
      (Value.list (microphoneLevels.map .int)).literal
  | notAlert value => "alert_type: " ++ value.literal ++ " is not an AlertType"
  | noMapping path => path ++ ": top level must be a mapping"

/-- The name of the field to blame, empty if there is none. -/
def fieldName : Violation → String
  | notMember name .. | notNumber name _ | notFinite name _ | notRange name _ | notSequence name =>
    name
  | notStep _ | unknownStepFields _ | notSettings _ | unknownFields _ | noMapping _ => ""
  | kindMissing => StepField.kind.name
  | stepAt name index cause =>
    match cause.fieldName with
    | "" => label name index
    | inner => label name index ++ "." ++ inner
  | unknownSequence key => key.plain
  | notResolution name _ => name ++ "_type"
  | rangeSize name _ | loneValue name _ | negativeValues name _ | reversedRange name .. => name
  | notStimulus label _ => label ++ ".type"
  | negativeDelay label | reversedDelays label .. => label ++ ".start_delay"
  | rangeOf label cause => label ++ "." ++ cause.fieldName
  | strengthOutside label .. => label ++ ".strength_range"
  | reversedPair low .. => low.name
  | negativePeriod field | outsideDevice field _ => field.name
  | unsupportedMicrophone _ => SettingField.microphone.name
  | notAlert _ => SettingField.alert.name

/-- What stands for the field to blame: its name, or the key that names no step sequence. -/
def field : Violation → Value
  | unknownSequence key => key
  | violation => .text violation.fieldName

/-- The values that the wording shows. -/
def shown : Violation → List Value
  | notMember _ _ value | notNumber _ value | notFinite _ value | notRange _ value
  | notResolution _ value | notStimulus _ value | outsideDevice _ value
  | unsupportedMicrophone value | notAlert value => [value]
  | unknownSequence key => [key]
  | negativeValues _ values => values
  | reversedRange _ low high | reversedDelays _ low high | reversedPair _ _ low high => [low, high]
  | strengthOutside _ values _ low high => low :: high :: values
  | _ => []

end Violation

end TrainingCollar
