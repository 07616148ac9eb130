import TrainingCollar.Mapping

/-! # Validation

The invariants of steps and configurations. Bounds are ordered and within what the device accepts,
periods and delays are not negative, the microphone has one of its gain steps, and every strength of
a step lies within the bounds of its stimulus. Validation looks at whatever the fields hold, so a
comparison of things that are not ordered is a fault of its own.
-/

namespace TrainingCollar

/-- Compares two values; values that are not ordered cannot be compared. -/
def atMost (low high : Value) : Except Fault Bool :=
  match low.le? high with
  | some answer => .ok answer
  | none => .error .wrongKind

/-- Whether a value is at least zero. -/
def notNegative (value : Value) : Except Fault Bool := atMost (.int 0) value

/-- Whether each value is at least zero, up to the first that is not. -/
def noneNegative : List Value → Except Fault Bool
  | [] => .ok true
  | value :: rest => do
    if ← notNegative value then noneNegative rest else return false

/-- The number of items of a value. -/
def sizeOfValue (value : Value) : Except Fault Nat :=
  match value.items? with
  | some items => .ok items.length
  | none => .error .wrongKind

/-- The item of a value at a position; in a mapping the position is a key. -/
def itemAt (value : Value) (position : Nat) : Except Fault Value :=
  let item (kind : Option String) (items : List Value) : Except Fault Value :=
    match items[position]? with
    | some item => .ok item
    | none => .error (.badIndex (.missingItem kind))
  match value.exposed with
  | .list items => item "list" items
  | .tuple items => item "tuple" items
  | .text s => item "string" (s.toList.map fun c => .text (String.singleton c))
  | .bytes content => item none (content.map fun byte => .int byte.toNat)
  | .map entries =>
    match Value.lookup? entries (.int position) with
    | some item => .ok item
    | none => .error .noKey
  | _ => .error .wrongKind

/-- Checks a range against the way it is resolved. -/
def validateRange (name : String) (mode values : Value) : Except Fault Unit :=
  match mode with
  | .choice (.resolution mode) => do
    let size ← sizeOfValue values
    if size ≠ 1 ∧ size ≠ 2 then refuse (.rangeSize name size)
    else if size = 1 ∧ mode ≠ .fixed then refuse (.loneValue name mode)
    else
      let items ← itemsOf values
      if ← noneNegative items then
        if size = 2 then
          let low ← itemAt values 0
          let high ← itemAt values 1
          if ← atMost low high then return ()
          else refuse (.reversedRange name low high)
      else refuse (.negativeValues name items)
  | _ => refuse (.notResolution name mode)

/-- Checks that the values of a range, which are numbers, lie between two bounds. The range is
compared by its least and its greatest value. -/
def withinBounds (low high : Value) (values : List Value) : Except Fault Bool :=
  let least := values.tail.foldl (fun a b => if b.le? a == some true then b else a)
    (values.headD .null)
  let greatest := values.tail.foldl (fun a b => if a.le? b == some true then b else a)
    (values.headD .null)
  do
    if ← atMost low least then
      if ← atMost least greatest then atMost greatest high else return false
    else return false

/-- Marks a violation as one of a range of a labelled step. -/
def inStep (label : String) (result : Except Fault Unit) : Except Fault Unit :=
  match result with
  | .error (.invalid violation) => refuse (.rangeOf label violation)
  | other => other

/-- Checks one step, its strength against the bounds of a configuration. -/
def validateStep (s : Step) (bounds : Stimulus → Except Fault (Option (Value × Value)))
    (label : String) : Except Fault Unit :=
  match s.kind with
  | .choice (.stimulus kind) => do
    if !(← notNegative s.startDelay) then refuse (.negativeDelay label)
    else if !(← notNegative s.endDelay) then refuse (.negativeDelay label)
    else if !(← atMost s.startDelay s.endDelay) then
      refuse (.reversedDelays label s.startDelay s.endDelay)
    else
      inStep label do
        validateRange StepField.time.name s.timeMode s.time
        validateRange StepField.strength.name s.strengthMode s.strength
      match ← bounds kind with
      | none => return ()
      | some (low, high) =>
        let values ← itemsOf s.strength
        if ← withinBounds low high values then return ()
        else refuse (.strengthOutside label values kind low high)
  | kind => refuse (.notStimulus label kind)

namespace Settings

/-- Pairs of fields that stay ordered. -/
def orderedPairs : List (SettingField × SettingField) :=
  [(.idleMin, .idleMax), (.actionMin, .actionMax), (.decibelMin, .decibelMax),
    (.shockMin, .shockMax), (.vibeMin, .vibeMax)]

/-- Fields that hold strengths of the device. -/
def strengthFields : List SettingField := [.shockMin, .shockMax, .vibeMin, .vibeMax]

/-- Fields that hold least periods. -/
def periodFields : List SettingField := [.idleMin, .actionMin]

/-- Checks that a pair of fields is ordered. -/
def validatePair (s : Settings) (pair : SettingField × SettingField) : Except Fault Unit := do
  let low := s.get pair.1
  let high := s.get pair.2
  if ← atMost low high then return () else refuse (.reversedPair pair.1 pair.2 low high)

/-- Checks that a period is not negative. -/
def validatePeriod (s : Settings) (field : SettingField) : Except Fault Unit := do
  if ← notNegative (s.get field) then return () else refuse (.negativePeriod field)

/-- Checks that a strength is one the device accepts. -/
def validateStrength (s : Settings) (field : SettingField) : Except Fault Unit := do
  let value := s.get field
  if ← atMost (.int deviceMin) value then
    if ← atMost value (.int deviceMax) then return ()
    else refuse (.outsideDevice field value)
  else refuse (.outsideDevice field value)

/-- Checks the gain step of the microphone, which is an integer and not a truth value. -/
def validateMicrophone (s : Settings) : Except Fault Unit :=
  match s.microphone with
  | .int n =>
    if microphoneLevels.contains n then .ok () else refuse (.unsupportedMicrophone (.int n))
  | value => refuse (.unsupportedMicrophone value)

/-- Checks the alert. -/
def validateAlert (s : Settings) : Except Fault Unit :=
  match s.alert with
  | .choice (.alert _) => .ok ()
  | value => refuse (.notAlert value)

/-- Runs a check on each member of a list, up to the first that fails. -/
def checkAll {α : Type} (check : α → Except Fault Unit) : List α → Except Fault Unit
  | [] => .ok ()
  | x :: rest => do check x; checkAll check rest

/-- The step that a value is; other values have none of its fields. -/
def stepOf (value : Value) : Except Fault Step :=
  match value with
  | .step s => .ok s
  | _ => .error .noPart

/-- Checks the steps of a sequence, given the position of the first. -/
def validateSteps (s : Settings) (name : String) (index : Nat) : List Value → Except Fault Unit
  | [] => .ok ()
  | item :: rest => do
    let step ← stepOf item
    validateStep step (fun kind => .ok (s.strengthBounds kind)) (Violation.label name index)
    validateSteps s name (index + 1) rest

/-- Checks a sequence of steps. -/
def validateSequence (s : Settings) (which : Sequence) : Except Fault Unit := do
  let items ← itemsOf (s.sequence which)
  validateSteps s which.name 0 items

/-- Checks every invariant of a configuration, up to the first that fails. -/
def validate (s : Settings) : Except Fault Unit := do
  checkAll s.validatePair orderedPairs
  checkAll s.validatePeriod periodFields
  checkAll s.validateStrength strengthFields
  s.validateMicrophone
  s.validateAlert
  checkAll s.validateSequence Sequence.all

/-- The configurations that validation accepts. -/
def Valid (s : Settings) : Prop := s.validate = .ok ()

end Settings

end TrainingCollar
