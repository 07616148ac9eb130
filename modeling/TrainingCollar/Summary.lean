import TrainingCollar.Validation

/-! # Summaries

Configurations and steps in words for a reader: periods in seconds, strengths as percentages, steps
one a line.
-/

namespace TrainingCollar

/-- A number with at most six significant digits. An integer is shown as the nearest double. -/
def briefNumber (value : Value) : Except Fault String :=
  match value with
  | .text _ | .choice _ => .error .badValue
  | _ =>
    match value.number? with
    | some number =>
      match number.toBinary64? with
      | some x => .ok x.brief
      | none => .error .tooLarge
    | none => .error .wrongKind

/-- A number of seconds in words. -/
def formatSeconds (value : Value) : Except Fault String := do
  let number ← briefNumber value
  return number ++ " second" ++ (if value.same (.int 1) then "" else "s")

/-- A quotient by a natural number. -/
def quotient (value : Value) (divisor : Nat) : Except Fault Value :=
  match value.number? with
  | some number =>
    match number.divide? divisor with
    | some x => .ok (.float x)
    | none => .error .tooLarge
  | none => .error .wrongKind

/-- A number of milliseconds in words, as seconds. -/
def formatMilliseconds (value : Value) : Except Fault String := do
  formatSeconds (← quotient value 1000)

/-- A fraction as a whole percentage. The percentage is rounded to six places before it is rounded
down, so that `0.29` is 29 percent. -/
def formatPercentage (value : Value) : Except Fault String :=
  match value.number? with
  | some (.int n) =>
    if Value.fits (n * 100) then .ok (toString (n * 100) ++ "%") else .error .badValue
  | some (.float x) =>
    match x with
    | .nan => .error .badValue
    | _ =>
      match ((x.scale 100).roundTo 6).floor? with
      | some percent => .ok (toString percent ++ "%")
      | none => .error .tooLarge
  | none => .error .wrongKind

/-- A range of one value or of two. -/
def formatRange (values : Value) : Except Fault String := do
  let size ← sizeOfValue values
  let low ← briefNumber (← itemAt values 0)
  if size = 1 then return low
  let high ← briefNumber (← itemAt values 1)
  return low ++ "-" ++ high

/-- The name of a choice in lower case, without the part that all stimuli share. -/
def stimulusName (value : Value) : Except Fault String := do
  let name ← nameOf value
  return match name with
    | "COLLAR_BEEP" => "beep"
    | "COLLAR_VIBRATION" => "vibration"
    | "COLLAR_SHOCK" => "shock"
    | other => other.toLower

/-- The name of a choice in lower case. -/
def modeName (value : Value) : Except Fault String := do
  return (← nameOf value).toLower

/-- A step in one line. -/
def describeStep (s : Step) : Except Fault String := do
  let kind ← stimulusName s.kind
  let start ← formatMilliseconds s.startDelay
  let stop ← formatMilliseconds s.endDelay
  let timeMode ← modeName s.timeMode
  let time ← formatRange s.time
  let text := kind ++ ": " ++ start ++ " to " ++ stop ++ ", time " ++ timeMode ++ " " ++ time
  match s.kind with
  | .choice (.stimulus .beep) => return text
  | _ =>
    let strengthMode ← modeName s.strengthMode
    let strength ← formatRange s.strength
    return text ++ ", strength " ++ strengthMode ++ " " ++ strength

/-- A strength as a percentage of what a device accepts. -/
def formatStrength (value : Value) : Except Fault String := do
  formatPercentage (← quotient value 100)

/-- A title, padded, before a range of two texts. -/
def rangeLine (title : String) (format : Value → Except Fault String) (low high : Value) :
    Except Fault String := do
  let first ← format low
  let second ← format high
  return title ++ first ++ " - " ++ second

/-- A value that stands in a sentence, if it can be shown; a step is shown in brief. -/
def showPlain (value : Value) : Except Fault String :=
  if value.hasText then
    match value with
    | .step s => Step.brief s
    | _ => .ok value.plain
  else .error .badValue

/-- Texts written one after the other, up to a fault. -/
structure Report where
  lines : List String
  fault : Option Fault

namespace Report

/-- A report of lines each of which may fail; it ends at the first that does. -/
def ofLines : List (Except Fault String) → Report
  | [] => ⟨[], none⟩
  | .error fault :: _ => ⟨[], some fault⟩
  | .ok line :: rest =>
    let report := ofLines rest
    ⟨line :: report.lines, report.fault⟩

/-- One report after another, which only starts if the first ends well. -/
def append (first : Report) (second : Report) : Report :=
  match first.fault with
  | some _ => first
  | none => ⟨first.lines ++ second.lines, second.fault⟩

/-- The text of a report. -/
def text (r : Report) : String := String.join (r.lines.map (· ++ "\n"))

end Report

namespace Settings

/-- The lines for the steps of a sequence, given the position of the first. -/
def stepLines (index : Nat) : List Value → List (Except Fault String)
  | [] => []
  | item :: rest =>
    (do
      let step ← stepOf item
      let text ← describeStep step
      return "  " ++ toString index ++ ". " ++ text) :: stepLines (index + 1) rest

/-- The report of a sequence: its title with the number of steps, then the steps. -/
def sequenceReport (s : Settings) (which : Sequence) : Report :=
  let value := s.sequence which
  match sizeOfValue value, itemsOf value with
  | .ok size, .ok items =>
    .ofLines (.ok ("\n" ++ which.title ++ " (" ++ toString size ++ "):") :: stepLines 0 items)
  | .error fault, _ | _, .error fault => ⟨[], some fault⟩

/-- The report of a configuration. -/
def report (s : Settings) : Report :=
  let rule := String.ofList (List.replicate 60 '=')
  let head := Report.ofLines [
    .ok rule, .ok "COLLAR SETTINGS", .ok rule,
    rangeLine "Idle period:       " formatMilliseconds s.idleMin s.idleMax,
    rangeLine "Action period:     " formatMilliseconds s.actionMin s.actionMax,
    (rangeLine "Decibel threshold: " showPlain s.decibelMin s.decibelMax).map (· ++ " dB"),
    (showPlain s.microphone).map ("Mic sensitivity:   " ++ ·),
    (nameOf s.alert).map ("Alert type:        " ++ ·),
    rangeLine "Shock bounds:      " formatStrength s.shockMin s.shockMax,
    rangeLine "Vibration bounds:  " formatStrength s.vibeMin s.vibeMax]
  (head.append (s.sequenceReport .corrections)).append (s.sequenceReport .affirmations)

end Settings

end TrainingCollar
