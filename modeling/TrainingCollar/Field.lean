/-! # Fields

A step has seven fields and a configuration fourteen, two of which hold step sequences. `StepOf` and
`SettingsOf` are records of what the fields hold, whatever that is, and the field types name the
places in them. A list is an object that may stand in more than one place, and `Sharing` keeps where
the lists of the two sequences stand besides their own fields.
-/

namespace TrainingCollar

/-- What the fields of a step hold. -/
structure StepOf (α : Type) where
  /-- The stimulus. -/
  kind : α
  startDelay : α
  endDelay : α
  /-- How the duration is resolved from `time`. -/
  timeMode : α
  time : α
  /-- How the intensity is resolved from `strength`. -/
  strengthMode : α
  strength : α
deriving DecidableEq

/-- The two step sequences. -/
inductive Sequence where
  | corrections
  | affirmations
deriving DecidableEq, Repr

/-- A place inside a step of a sequence. Only in the entries of a range that is a mapping can a list
stand, since all other fields and ranges hold numbers or names when the step is accepted. -/
structure Niche where
  /-- The position of the step. -/
  position : Nat
  /-- Whether the range is the one of the strength, and not the one of the time. -/
  inStrength : Bool
  /-- The position of the entry. -/
  entry : Nat
  /-- The positions that lead on from what the entry holds. -/
  path : List Nat
deriving DecidableEq

/-- The place after the step at a position was taken out of the sequence, if it was not in that step. -/
def Niche.without? (position : Nat) (niche : Niche) : Option Niche :=
  if niche.position = position then none
  else if position < niche.position then some { niche with position := niche.position - 1 }
  else some niche

/-- Where the lists of a configuration stand besides their own fields. A caller may assign the list of a
sequence to the other sequence as well, or put it inside a step of the other sequence or inside a bound of
the loudness; copies of the configuration keep this. No other field can hold a list while the
configuration is valid. The places hold what the lists hold; this is not required here, since no proof
depends on it. Lists that contain themselves are left out. -/
structure Sharing where
  /-- Whether both sequences are one list. -/
  joined : Bool
  /-- The places of lists inside `decibelMin`, by the positions that lead to them; a list inside another one
  of them is not named again. -/
  decibelMin : List (Sequence × List Nat)
  /-- The places of lists inside `decibelMax`. -/
  decibelMax : List (Sequence × List Nat)
  /-- The places inside the corrections where the list of the affirmations stands. -/
  corrections : List Niche
  /-- The places inside the affirmations where the list of the corrections stands. -/
  affirmations : List Niche
deriving DecidableEq

namespace Sharing

/-- Every list stands in its own field and nowhere else. -/
def none : Sharing := ⟨false, [], [], [], []⟩

/-- Whether the lists of two sequences are one. -/
def areOne (s : Sharing) (which other : Sequence) : Bool := which == other || s.joined

/-- The places inside the steps of a sequence where the other list stands. There are none if both are one
list. -/
def niches (s : Sharing) (which : Sequence) : List Niche :=
  if s.joined then []
  else
    match which with
    | .corrections => s.corrections
    | .affirmations => s.affirmations

/-- Whether the other list stands nowhere inside the step at a position of a sequence. -/
def isClear (s : Sharing) (which : Sequence) (position : Nat) : Bool :=
  (s.niches which).all (·.position != position)

/-- The sharing after the step at a position of a sequence was taken out. -/
def without (s : Sharing) (which : Sequence) (position : Nat) : Sharing :=
  match which with
  | .corrections => { s with corrections := s.corrections.filterMap (Niche.without? position) }
  | .affirmations => { s with affirmations := s.affirmations.filterMap (Niche.without? position) }

/-- Whether no list stands inside a bound of the loudness or inside a step. -/
def isApart (s : Sharing) : Bool :=
  s.decibelMin.isEmpty && s.decibelMax.isEmpty && s.corrections.isEmpty && s.affirmations.isEmpty

end Sharing

/-- What the fields of a configuration hold. -/
structure SettingsOf (α : Type) where
  idleMin : α
  idleMax : α
  actionMin : α
  actionMax : α
  decibelMin : α
  decibelMax : α
  /-- The gain step of the microphone. -/
  microphone : α
  alert : α
  shockMin : α
  shockMax : α
  vibeMin : α
  vibeMax : α
  /-- The steps run on a detected violation. -/
  corrections : α
  /-- The steps run on positive reinforcement. -/
  affirmations : α
  sharing : Sharing := .none
deriving DecidableEq

/-- The fields of a step. -/
inductive StepField where
  | kind
  | startDelay
  | endDelay
  | timeMode
  | time
  | strengthMode
  | strength
deriving DecidableEq, Repr

/-- The fields of a configuration. -/
inductive SettingField where
  | idleMin
  | idleMax
  | actionMin
  | actionMax
  | decibelMin
  | decibelMax
  | microphone
  | alert
  | shockMin
  | shockMax
  | vibeMin
  | vibeMax
  | steps (sequence : Sequence)
deriving DecidableEq, Repr

namespace StepField

/-- The fields in their order. -/
def all : List StepField := [kind, startDelay, endDelay, timeMode, time, strengthMode, strength]

/-- The name of a field in mappings and messages. -/
def name : StepField → String
  | kind => "type"
  | startDelay => "start_delay"
  | endDelay => "end_delay"
  | timeMode => "time_range_type"
  | time => "time_range"
  | strengthMode => "strength_range_type"
  | strength => "strength_range"

/-- The field with a name. -/
def ofName? (name : String) : Option StepField := all.find? fun field => field.name == name

theorem mem_all (field : StepField) : field ∈ all := by cases field <;> simp [all]

theorem ofName?_name (field : StepField) : ofName? field.name = some field := by
  cases field <;> rfl

end StepField

namespace Sequence

/-- The sequences in their order. -/
def all : List Sequence := [corrections, affirmations]

/-- The name of a sequence in mappings and messages. -/
def name : Sequence → String
  | corrections => "correction_steps"
  | affirmations => "affirmation_steps"

/-- The title of a sequence in summaries. -/
def title : Sequence → String
  | corrections => "Correction steps"
  | affirmations => "Affirmation steps"

theorem mem_all (sequence : Sequence) : sequence ∈ all := by cases sequence <;> simp [all]

end Sequence

namespace SettingField

/-- The fields in their order. -/
def all : List SettingField :=
  [idleMin, idleMax, actionMin, actionMax, decibelMin, decibelMax, microphone, alert, shockMin,
    shockMax, vibeMin, vibeMax, steps .corrections, steps .affirmations]

/-- The name of a field in mappings and messages. -/
def name : SettingField → String
  | idleMin => "idle_period_min_ms"
  | idleMax => "idle_period_max_ms"
  | actionMin => "action_period_min_ms"
  | actionMax => "action_period_max_ms"
  | decibelMin => "decibel_threshold_min"
  | decibelMax => "decibel_threshold_max"
  | microphone => "mic_sensitivity"
  | alert => "alert_type"
  | shockMin => "collar_min_shock"
  | shockMax => "collar_max_shock"
  | vibeMin => "collar_min_vibe"
  | vibeMax => "collar_max_vibe"
  | steps sequence => sequence.name

/-- The field with a name. -/
def ofName? (name : String) : Option SettingField := all.find? fun field => field.name == name

theorem mem_all (field : SettingField) : field ∈ all := by
  cases field with
  | steps sequence => cases sequence <;> simp [all]
  | _ => simp [all]

theorem ofName?_name (field : SettingField) : ofName? field.name = some field := by
  cases field with
  | steps sequence => cases sequence <;> rfl
  | _ => rfl

end SettingField

namespace StepOf

variable {α β : Type}

/-- What a field holds. -/
def get (s : StepOf α) : StepField → α
  | .kind => s.kind
  | .startDelay => s.startDelay
  | .endDelay => s.endDelay
  | .timeMode => s.timeMode
  | .time => s.time
  | .strengthMode => s.strengthMode
  | .strength => s.strength

/-- The record with something else in one field. -/
def set (s : StepOf α) (field : StepField) (x : α) : StepOf α :=
  match field with
  | .kind => { s with kind := x }
  | .startDelay => { s with startDelay := x }
  | .endDelay => { s with endDelay := x }
  | .timeMode => { s with timeMode := x }
  | .time => { s with time := x }
  | .strengthMode => { s with strengthMode := x }
  | .strength => { s with strength := x }

@[simp] theorem get_set_self (s : StepOf α) (field : StepField) (x : α) :
    (s.set field x).get field = x := by cases field <;> rfl

@[simp] theorem get_set_of_ne (s : StepOf α) {field other : StepField} (x : α)
    (h : other ≠ field) : (s.set field x).get other = s.get other := by
  cases field <;> cases other <;> first | rfl | exact absurd rfl h

end StepOf

namespace SettingsOf

variable {α β : Type}

/-- What a field holds. -/
def get (s : SettingsOf α) : SettingField → α
  | .idleMin => s.idleMin
  | .idleMax => s.idleMax
  | .actionMin => s.actionMin
  | .actionMax => s.actionMax
  | .decibelMin => s.decibelMin
  | .decibelMax => s.decibelMax
  | .microphone => s.microphone
  | .alert => s.alert
  | .shockMin => s.shockMin
  | .shockMax => s.shockMax
  | .vibeMin => s.vibeMin
  | .vibeMax => s.vibeMax
  | .steps .corrections => s.corrections
  | .steps .affirmations => s.affirmations

/-- The record with something else in one field. -/
def set (s : SettingsOf α) (field : SettingField) (x : α) : SettingsOf α :=
  match field with
  | .idleMin => { s with idleMin := x }
  | .idleMax => { s with idleMax := x }
  | .actionMin => { s with actionMin := x }
  | .actionMax => { s with actionMax := x }
  | .decibelMin => { s with decibelMin := x }
  | .decibelMax => { s with decibelMax := x }
  | .microphone => { s with microphone := x }
  | .alert => { s with alert := x }
  | .shockMin => { s with shockMin := x }
  | .shockMax => { s with shockMax := x }
  | .vibeMin => { s with vibeMin := x }
  | .vibeMax => { s with vibeMax := x }
  | .steps .corrections => { s with corrections := x }
  | .steps .affirmations => { s with affirmations := x }

@[simp] theorem get_set_self (s : SettingsOf α) (field : SettingField) (x : α) :
    (s.set field x).get field = x := by
  cases field with
  | steps sequence => cases sequence <;> rfl
  | _ => rfl

@[simp] theorem get_set_of_ne (s : SettingsOf α) {field other : SettingField} (x : α)
    (h : other ≠ field) : (s.set field x).get other = s.get other := by
  rcases field with _ | _ | _ | _ | _ | _ | _ | _ | _ | _ | _ | _ | ⟨_ | _⟩ <;>
    rcases other with _ | _ | _ | _ | _ | _ | _ | _ | _ | _ | _ | _ | ⟨_ | _⟩ <;>
    first | rfl | exact absurd rfl h

@[simp] theorem sharing_set (s : SettingsOf α) (field : SettingField) (x : α) :
    (s.set field x).sharing = s.sharing := by
  cases field with
  | steps sequence => cases sequence <;> rfl
  | _ => rfl

end SettingsOf

end TrainingCollar
