import TrainingCollar.Fault
import TrainingCollar.Text.Blank
import TrainingCollar.Text.UpperCase
import TrainingCollar.Value.Order

/-! # Coercion

Building a step or a configuration coerces what its fields are given: choices may be given by name or
number, ranges as a single number, steps as mappings. Coercion settles the form of a value only;
whether the values fit together is decided by validation.
-/

namespace TrainingCollar

/-- A member of a family from a member, its name in any letter case, or its number. -/
def readChoice (family : Family) (name : String) (value : Value) : Except Fault Choice :=
  let found : Option Choice := match value.exposed with
    | .choice choice => if choice.family = family then some choice else none
    | .text s => family.ofName? (Text.upper (Text.trim s))
    | .int n => family.ofNumber? n
    | _ => none
  match found with
  | some choice => .ok choice
  | none => refuse (.notMember name family value)

/-- A finite number; truth values are not numbers here. -/
def readNumber (name : String) (value : Value) : Except Fault Number :=
  match value.exposed with
  | .int n => if (Binary64.ofInt? n).isSome then .ok (.int n) else .error .tooLarge
  | .float x => if x.isFinite then .ok (.float x) else refuse (.notFinite name value)
  | _ => refuse (.notNumber name value)

/-- The numbers of each item. -/
def readNumbers (name : String) : List Value → Except Fault (List Number)
  | [] => .ok []
  | item :: rest => do
    let number ← readNumber name item
    let numbers ← readNumbers name rest
    return number :: numbers

/-- One or two numbers, or a bare number, which is a range of one. -/
def readRange (name : String) (value : Value) : Except Fault (List Number) :=
  match value.exposed with
  | .int n => readNumbers name [.int n]
  | .float x => readNumbers name [.float x]
  | .list items | .tuple items =>
    if items.length = 1 ∨ items.length = 2 then readNumbers name items
    else refuse (.notRange name value)
  | _ => refuse (.notRange name value)

/-- A range as a value. -/
def rangeValue (numbers : List Number) : Value := .tuple (numbers.map Value.ofNumber)

/-- The names in code point order. -/
def sortedNames (names : List String) : List String := names.mergeSort fun a b => !decide (b < a)

/-- The texts among values, if all are texts. -/
def allTexts? : List Value → Option (List String)
  | [] => some []
  | .text s :: rest => (allTexts? rest).map (s :: ·)
  | _ => none

/-- Refuses the keys that name no field. Keys that are not texts cannot even be listed. -/
def refuseUnknown {α : Type} (keys : List Value) (violation : List String → Violation) :
    Except Fault α :=
  match allTexts? keys with
  | some names => refuse (violation (sortedNames names))
  | none => .error .wrongKind

namespace Step

/-- What a field holds unless it is given; a step has no stimulus by default. -/
def default? : StepField → Option Value
  | .kind => none
  | .startDelay | .endDelay => some (.int 0)
  | .timeMode | .strengthMode => some (.choice (.resolution .fixed))
  | .time | .strength => some (rangeValue [.int 0])

/-- The step with each field coerced, in their order. -/
def build (given : Step) : Except Fault Step := do
  let kind ← readChoice .stimulus StepField.kind.name given.kind
  let startDelay ← readNumber StepField.startDelay.name given.startDelay
  let endDelay ← readNumber StepField.endDelay.name given.endDelay
  let timeMode ← readChoice .resolution StepField.timeMode.name given.timeMode
  let time ← readRange StepField.time.name given.time
  let strengthMode ← readChoice .resolution StepField.strengthMode.name given.strengthMode
  let strength ← readRange StepField.strength.name given.strength
  return {
    kind := .choice kind
    startDelay := .ofNumber startDelay
    endDelay := .ofNumber endDelay
    timeMode := .choice timeMode
    time := rangeValue time
    strengthMode := .choice strengthMode
    strength := rangeValue strength }

/-- The step whose fields are given by a function, where it gives something. -/
def buildFrom (given : StepField → Option Value) : Except Fault Step :=
  match given .kind with
  | none => .error .wrongKind
  | some kind =>
    let field (f : StepField) : Value := ((given f).or (default? f)).getD .null
    build {
      kind := kind
      startDelay := field .startDelay
      endDelay := field .endDelay
      timeMode := field .timeMode
      time := field .time
      strengthMode := field .strengthMode
      strength := field .strength }

/-- Whether a key names a field of a step. -/
def isField : Value → Bool
  | .text s => (StepField.ofName? s).isSome
  | _ => false

/-- The step that the entries of a mapping describe. -/
def ofEntries (entries : List (Value × Value)) : Except Fault Step :=
  match (entries.map Prod.fst).filter fun key => !isField key with
  | [] =>
    let given (f : StepField) : Option Value := Value.lookup? entries (.text f.name)
    if (given .kind).isNone then refuse .kindMissing else buildFrom given
  | unknown => refuseUnknown unknown .unknownStepFields

/-- A step, or the step that a mapping describes. -/
def read (value : Value) : Except Fault Step :=
  match value.exposed with
  | .step s => .ok s
  | .map entries => ofEntries entries
  | _ => refuse (.notStep value)

/-- The step built from values in the order of the fields and from named values. No field may be
given twice and no name may be unknown. -/
def ofArguments (arguments : List Value) (named : List (Value × Value)) : Except Fault Step :=
  let placed := StepField.all.zip arguments
  let taken (f : StepField) : Bool := placed.any (·.1 == f)
  if StepField.all.length < arguments.length ∨
      named.any (fun (key, _) => !isField key) ∨
      StepField.all.any (fun f => taken f && (Value.lookup? named (.text f.name)).isSome) then
    .error .wrongKind
  else
    buildFrom fun f => ((placed.find? (·.1 == f)).map Prod.snd).or
      (Value.lookup? named (.text f.name))

end Step

/-- The steps of a list, given the position of its first item. Violations name the position. -/
def readStepsFrom (name : String) (index : Nat) : List Value → Except Fault (List Step)
  | [] => .ok []
  | item :: rest =>
    match Step.read item with
    | .error (.invalid violation) => refuse (.stepAt name index violation)
    | .error fault => .error fault
    | .ok step => (readStepsFrom name (index + 1) rest).map (step :: ·)

/-- The steps of a list of steps and mappings. -/
def readSteps (name : String) (value : Value) : Except Fault (List Step) :=
  match value.sequence? with
  | some items => readStepsFrom name 0 items
  | none => refuse (.notSequence name)

/-- Steps as a value. -/
def stepsValue (steps : List Step) : Value := .list (steps.map .step)

/-- What a field of a configuration makes of a value. -/
def readField (field : SettingField) (value : Value) : Except Fault Value :=
  match field with
  | .alert => (readChoice .alert field.name value).map .choice
  | .steps sequence => (readSteps sequence.name value).map stepsValue
  | _ => (readNumber field.name value).map .ofNumber

namespace Settings

/-- What the fields hold unless they are given. -/
def defaults : Settings where
  idleMin := .int 5000
  idleMax := .int 30000
  actionMin := .int 3000
  actionMax := .int 5000
  decibelMin := .int 80
  decibelMax := .int 95
  microphone := .int 27
  alert := .choice (.alert .none)
  shockMin := .int 5
  shockMax := .int 75
  vibeMin := .int 5
  vibeMax := .int 100
  corrections := .list []
  affirmations := .list []

/-- The configuration with each field coerced, in their order. -/
def build (given : Settings) : Except Fault Settings := do
  let idleMin ← readField .idleMin given.idleMin
  let idleMax ← readField .idleMax given.idleMax
  let actionMin ← readField .actionMin given.actionMin
  let actionMax ← readField .actionMax given.actionMax
  let decibelMin ← readField .decibelMin given.decibelMin
  let decibelMax ← readField .decibelMax given.decibelMax
  let microphone ← readField .microphone given.microphone
  let alert ← readField .alert given.alert
  let shockMin ← readField .shockMin given.shockMin
  let shockMax ← readField .shockMax given.shockMax
  let vibeMin ← readField .vibeMin given.vibeMin
  let vibeMax ← readField .vibeMax given.vibeMax
  let corrections ← readField (.steps .corrections) given.corrections
  let affirmations ← readField (.steps .affirmations) given.affirmations
  return { idleMin, idleMax, actionMin, actionMax, decibelMin, decibelMax, microphone, alert,
           shockMin, shockMax, vibeMin, vibeMax, corrections, affirmations }

/-- Whether a key names a field of a configuration. -/
def isField : Value → Bool
  | .text s => (SettingField.ofName? s).isSome
  | _ => false

/-- The coerced contents of the fields that entries name. -/
def readEntries : List (Value × Value) → Except Fault (List (SettingField × Value))
  | [] => .ok []
  | (key, value) :: rest =>
    match key with
    | .text s =>
      match SettingField.ofName? s with
      | some field => do
        let content ← readField field value
        let contents ← readEntries rest
        return (field, content) :: contents
      | none => readEntries rest
    | _ => readEntries rest

/-- The coerced contents of the fields that a mapping names. -/
def readFields (value : Value) : Except Fault (List (SettingField × Value)) :=
  match value.entries? with
  | none => refuse (.notSettings value)
  | some entries =>
    match (entries.map Prod.fst).filter fun key => !isField key with
    | [] => readEntries entries
    | unknown => refuseUnknown unknown .unknownFields

/-- The configuration with new contents in some fields. -/
def withFields (s : Settings) (contents : List (SettingField × Value)) : Settings :=
  contents.foldl (fun s (field, content) => s.set field content) s

/-- The configuration that a mapping describes; fields it does not name take their defaults. -/
def read (value : Value) : Except Fault Settings := do
  let contents ← readFields value
  build (defaults.withFields contents)

/-- The configuration built from values in the order of the fields and from named values. No field
may be given twice and no name may be unknown. -/
def ofArguments (arguments : List Value) (named : List (Value × Value)) : Except Fault Settings :=
  let placed := SettingField.all.zip arguments
  let fromNamed := SettingField.all.filterMap fun f =>
    (Value.lookup? named (.text f.name)).map (f, ·)
  if SettingField.all.length < arguments.length ∨
      named.any (fun (key, _) => !isField key) ∨
      placed.any (fun (f, _) => fromNamed.any (·.1 == f)) then
    .error .wrongKind
  else build (defaults.withFields (placed ++ fromNamed))

end Settings

end TrainingCollar
