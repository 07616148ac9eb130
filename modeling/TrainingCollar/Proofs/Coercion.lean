import TrainingCollar.Coercion
import TrainingCollar.Proofs.Validation

/-! # What construction yields

A step or a configuration is *built* if a call of its constructor yields it; for a configuration this
includes its steps. `Step.built_iff` and `Settings.built_iff` say what the fields of built ones hold:
numbers, ranges and choices in the one form that coercion gives them, and no other. Coercion leaves
such contents as they are, so building again changes nothing.
-/

namespace TrainingCollar

/-! ## Contents of fields -/

/-- A finite number that a double can come close to. -/
def Number.Admitted : Number → Prop
  | .int n => (Binary64.ofInt? n).isSome = true
  | .float x => x.isFinite = true

/-- How many numbers a range has. -/
def RangeSize (size : Nat) : Prop := size = 1 ∨ size = 2

namespace Value

/-- A number that a field takes. -/
def IsNumber (v : Value) : Prop := ∃ n : Number, n.Admitted ∧ v = ofNumber n

/-- A choice of a family. -/
def IsChoice (family : Family) (v : Value) : Prop := ∃ c : Choice, c.family = family ∧ v = .choice c

/-- One or two numbers. -/
def IsRange (v : Value) : Prop := ∃ numbers : List Number,
  RangeSize numbers.length ∧ (∀ n ∈ numbers, n.Admitted) ∧ v = rangeValue numbers

@[simp] theorem exposed_ofNumber (n : Number) : (ofNumber n).exposed = ofNumber n := by
  cases n <;> rfl

end Value

theorem readNumber_eq_ok_iff {name : String} {v : Value} {n : Number} :
    readNumber name v = .ok n ↔ v.exposed = .ofNumber n ∧ n.Admitted := by
  unfold readNumber
  split
  · next k isInt =>
    rw [isInt]
    constructor
    · intro read
      split at read
      · next near =>
        cases read
        exact ⟨rfl, near⟩
      · cases read
    · rintro ⟨same, admitted⟩
      cases n with
      | int k =>
        cases same
        exact if_pos admitted
      | float x => cases same
  · next x isFloat =>
    rw [isFloat]
    constructor
    · intro read
      split at read
      · next finite =>
        cases read
        exact ⟨rfl, finite⟩
      · cases read
    · rintro ⟨same, admitted⟩
      cases n with
      | int k => cases same
      | float x =>
        cases same
        exact if_pos admitted
  · next notInt notFloat =>
    refine iff_of_false refuse_ne_ok ?_
    rintro ⟨same, _⟩
    cases n with
    | int k => exact notInt k same
    | float x => exact notFloat x same

theorem readNumber_ofNumber (name : String) {n : Number} (admitted : n.Admitted) :
    readNumber name (.ofNumber n) = .ok n :=
  readNumber_eq_ok_iff.mpr ⟨Value.exposed_ofNumber n, admitted⟩

theorem admitted_of_readNumbers {name : String} {items : List Value} {numbers : List Number}
    (read : readNumbers name items = .ok numbers) :
    numbers.length = items.length ∧ ∀ n ∈ numbers, n.Admitted := by
  induction items generalizing numbers with
  | nil =>
    cases read
    exact ⟨rfl, List.forall_mem_nil _⟩
  | cons item rest ih =>
    simp only [readNumbers, bind_eq_ok_iff, readNumber_eq_ok_iff, pure_eq_ok_iff] at read
    obtain ⟨number, ⟨_, admitted⟩, others, readOthers, rfl⟩ := read
    obtain ⟨size, admittedOthers⟩ := ih readOthers
    refine ⟨?_, List.forall_mem_cons.mpr ⟨admitted, admittedOthers⟩⟩
    rw [List.length_cons, List.length_cons, size]

theorem readNumbers_ofNumbers (name : String) {numbers : List Number}
    (admitted : ∀ n ∈ numbers, n.Admitted) :
    readNumbers name (numbers.map .ofNumber) = .ok numbers := by
  induction numbers with
  | nil => rfl
  | cons n rest ih =>
    obtain ⟨first, others⟩ := List.forall_mem_cons.mp admitted
    simp only [List.map_cons, readNumbers, bind_eq_ok_iff, pure_eq_ok_iff]
    exact ⟨n, readNumber_ofNumber name first, rest, ih others, rfl⟩

theorem admitted_of_readRange {name : String} {v : Value} {numbers : List Number}
    (read : readRange name v = .ok numbers) :
    RangeSize numbers.length ∧ ∀ n ∈ numbers, n.Admitted := by
  unfold readRange at read
  split at read
  · obtain ⟨size, admitted⟩ := admitted_of_readNumbers read
    exact ⟨.inl size, admitted⟩
  · obtain ⟨size, admitted⟩ := admitted_of_readNumbers read
    exact ⟨.inl size, admitted⟩
  · split at read
    · next few =>
      obtain ⟨size, admitted⟩ := admitted_of_readNumbers read
      rw [← size] at few
      exact ⟨few, admitted⟩
    · cases read
  · split at read
    · next few =>
      obtain ⟨size, admitted⟩ := admitted_of_readNumbers read
      rw [← size] at few
      exact ⟨few, admitted⟩
    · cases read
  · cases read

/-- A list or a tuple of one or two numbers is a range. -/
theorem readRange_of_sequence (name : String) {v : Value} {numbers : List Number}
    (size : RangeSize numbers.length) (admitted : ∀ n ∈ numbers, n.Admitted)
    (items : v = .list (numbers.map .ofNumber) ∨ v = .tuple (numbers.map .ofNumber)) :
    readRange name v = .ok numbers := by
  have few : (numbers.map Value.ofNumber).length = 1 ∨ (numbers.map Value.ofNumber).length = 2 := by
    rw [List.length_map]
    exact size
  have read := readNumbers_ofNumbers name admitted
  rcases items with rfl | rfl
  · exact (if_pos few).trans read
  · exact (if_pos few).trans read

private theorem eq_some_of_chosen {found : Option Choice} {violation : Violation} {c : Choice}
    (chosen : (match found with
      | some choice => .ok choice
      | none => refuse violation) = (.ok c : Except Fault Choice)) : found = some c := by
  cases found with
  | none => cases chosen
  | some choice =>
    cases chosen
    rfl

theorem family_of_readChoice {family : Family} {name : String} {v : Value} {c : Choice}
    (read : readChoice family name v = .ok c) : c.family = family := by
  have among {p : Choice → Bool} (found : family.members.find? p = some c) : c.family = family :=
    (family.mem_members_iff c).mp (List.mem_of_find?_eq_some found)
  have found := eq_some_of_chosen read
  split at found
  · split at found
    · next same =>
      cases found
      exact same
    · cases found
  · exact among found
  · exact among found
  · cases found

theorem readChoice_choice (name : String) {family : Family} {c : Choice} (isFamily : c.family = family) :
    readChoice family name (.choice c) = .ok c := by
  simp [readChoice, Value.exposed, isFamily]

/-! ## Steps -/

namespace Step

/-- A call of the constructor yields the step. -/
def Built (s : Step) : Prop := ∃ arguments named, ofArguments arguments named = .ok s

/-- Each field holds what it takes, in the form that coercion gives it. -/
structure Canonical (s : Step) : Prop where
  kind : s.kind.IsChoice .stimulus
  startDelay : s.startDelay.IsNumber
  endDelay : s.endDelay.IsNumber
  timeMode : s.timeMode.IsChoice .resolution
  time : s.time.IsRange
  strengthMode : s.strengthMode.IsChoice .resolution
  strength : s.strength.IsRange

variable {s given : Step}

theorem canonical_of_build (built : build given = .ok s) : s.Canonical := by
  simp only [build, bind_eq_ok_iff, pure_eq_ok_iff] at built
  obtain ⟨kind, isKind, startDelay, isStart, endDelay, isEnd, timeMode, isTimeMode, time, isTime,
    strengthMode, isStrengthMode, strength, isStrength, rfl⟩ := built
  obtain ⟨timeSize, timeAdmitted⟩ := admitted_of_readRange isTime
  obtain ⟨strengthSize, strengthAdmitted⟩ := admitted_of_readRange isStrength
  exact {
    kind := ⟨kind, family_of_readChoice isKind, rfl⟩
    startDelay := ⟨startDelay, (readNumber_eq_ok_iff.mp isStart).2, rfl⟩
    endDelay := ⟨endDelay, (readNumber_eq_ok_iff.mp isEnd).2, rfl⟩
    timeMode := ⟨timeMode, family_of_readChoice isTimeMode, rfl⟩
    time := ⟨time, timeSize, timeAdmitted, rfl⟩
    strengthMode := ⟨strengthMode, family_of_readChoice isStrengthMode, rfl⟩
    strength := ⟨strength, strengthSize, strengthAdmitted, rfl⟩ }

/-- Building a canonical step again changes nothing. -/
theorem Canonical.build (canonical : s.Canonical) : Step.build s = .ok s := by
  obtain ⟨kind, startDelay, endDelay, timeMode, time, strengthMode, strength⟩ := s
  obtain ⟨⟨kind, isKind, rfl⟩, ⟨start, startAdmitted, rfl⟩, ⟨stop, stopAdmitted, rfl⟩,
    ⟨timeMode, isTimeMode, rfl⟩, ⟨time, timeSize, timeAdmitted, rfl⟩,
    ⟨strengthMode, isStrengthMode, rfl⟩, ⟨strength, strengthSize, strengthAdmitted, rfl⟩⟩ := canonical
  simp only [Step.build, bind_eq_ok_iff, pure_eq_ok_iff]
  exact ⟨kind, readChoice_choice _ isKind, start, readNumber_ofNumber _ startAdmitted, stop,
    readNumber_ofNumber _ stopAdmitted, timeMode, readChoice_choice _ isTimeMode, time,
    readRange_of_sequence _ timeSize timeAdmitted (.inr rfl), strengthMode,
    readChoice_choice _ isStrengthMode, strength,
    readRange_of_sequence _ strengthSize strengthAdmitted (.inr rfl), rfl⟩

theorem exists_build_of_buildFrom {contents : StepField → Option Value}
    (built : buildFrom contents = .ok s) : ∃ given, build given = .ok s := by
  unfold buildFrom at built
  split at built
  · cases built
  · exact ⟨_, built⟩

theorem canonical_of_ofEntries {entries : List (Value × Value)}
    (built : ofEntries entries = .ok s) : s.Canonical := by
  unfold ofEntries at built
  split at built
  · dsimp only at built
    split at built
    · cases built
    · obtain ⟨_, built⟩ := exists_build_of_buildFrom built
      exact canonical_of_build built
  · unfold refuseUnknown at built
    split at built <;> cases built

theorem built_iff : s.Built ↔ s.Canonical := by
  constructor
  · rintro ⟨arguments, named, built⟩
    unfold ofArguments at built
    dsimp only at built
    split at built
    · cases built
    · obtain ⟨_, built⟩ := exists_build_of_buildFrom built
      exact canonical_of_build built
  · intro canonical
    have same : ofArguments [s.kind, s.startDelay, s.endDelay, s.timeMode, s.time, s.strengthMode,
        s.strength] [] = build s := rfl
    exact ⟨_, [], same.trans canonical.build⟩

end Step

/-! ## Configurations -/

/-- What a field of a configuration holds, in the form that coercion gives it. -/
def SettingField.Holds (field : SettingField) (v : Value) : Prop :=
  match field with
  | .alert => v.IsChoice .alert
  | .steps _ => ∃ steps : List Step, v = stepsValue steps ∧ ∀ step ∈ steps, step.Canonical
  | _ => v.IsNumber

/-- Steps are read as they are. -/
theorem readStepsFrom_steps (name : String) (index : Nat) (steps : List Step) :
    readStepsFrom name index (steps.map .step) = .ok steps := by
  induction steps generalizing index with
  | nil => rfl
  | cons step rest ih =>
    simp only [List.map_cons, readStepsFrom, Step.read, Value.exposed, ih]
    rfl

theorem readField_stepsValue (which : Sequence) (steps : List Step) :
    readField (.steps which) (stepsValue steps) = .ok (stepsValue steps) := by
  have read : readSteps which.name (stepsValue steps) = .ok steps :=
    readStepsFrom_steps which.name 0 steps
  simp only [readField, read]
  rfl

theorem readField_of_isNumber {field : SettingField} {v : Value} (number : v.IsNumber)
    (scalar : ∀ which, field ≠ .steps which) (noAlert : field ≠ .alert) :
    readField field v = .ok v := by
  obtain ⟨n, admitted, rfl⟩ := number
  have read := readNumber_ofNumber field.name admitted
  cases field with
  | steps which => exact absurd rfl (scalar which)
  | alert => exact absurd rfl noAlert
  | _ =>
    simp only [readField, read]
    rfl

/-- A field with a number takes a number as it is, and nothing else. -/
theorem readField_numeric_iff {field : SettingField} (numeric : field.isNumeric = true)
    {given v : Value} : readField field given = .ok v ↔ given.exposed = v ∧ v.IsNumber := by
  have reads : readField field given = (readNumber field.name given).map .ofNumber := by
    cases field with
    | alert | steps => cases numeric
    | _ => rfl
  rw [reads, map_eq_ok_iff]
  constructor
  · rintro ⟨n, read, rfl⟩
    obtain ⟨same, admitted⟩ := readNumber_eq_ok_iff.mp read
    exact ⟨same, n, admitted, rfl⟩
  · rintro ⟨same, n, admitted, rfl⟩
    exact ⟨n, readNumber_eq_ok_iff.mpr ⟨same, admitted⟩, rfl⟩

/-- Coercion leaves what a field holds as it is. -/
theorem SettingField.Holds.read {field : SettingField} {v : Value} (holds : field.Holds v) :
    readField field v = .ok v := by
  cases field with
  | alert =>
    obtain ⟨c, isAlert, rfl⟩ := holds
    simp only [readField, readChoice_choice _ isAlert]
    rfl
  | steps which =>
    obtain ⟨steps, rfl, _⟩ := holds
    exact readField_stepsValue which steps
  | _ => exact readField_of_isNumber holds nofun nofun

/-- What a field is given is coerced to what it holds, apart from steps that were given as such. -/
theorem SettingField.holds_of_readField {field : SettingField} {given v : Value}
    (read : readField field given = .ok v)
    (built : ∀ which, field = .steps which → ∀ steps : List Step, v = stepsValue steps →
      ∀ step ∈ steps, step.Canonical) : field.Holds v := by
  cases field with
  | alert =>
    obtain ⟨c, isAlert, rfl⟩ := map_eq_ok_iff.mp read
    exact ⟨c, family_of_readChoice isAlert, rfl⟩
  | steps which =>
    obtain ⟨steps, _, rfl⟩ := map_eq_ok_iff.mp read
    exact ⟨steps, rfl, built which rfl steps rfl⟩
  | _ =>
    obtain ⟨n, isNumber, rfl⟩ := map_eq_ok_iff.mp read
    exact ⟨n, (readNumber_eq_ok_iff.mp isNumber).2, rfl⟩

namespace Settings

/-- A call of the constructor yields the configuration, and one yields each of its steps. -/
def Built (s : Settings) : Prop :=
  (∃ arguments named, ofArguments arguments named = .ok s) ∧
    ∀ which items (step : Step), (s.sequence which).items? = some items → .step step ∈ items →
      step.Built

/-- Each field holds what it takes, in the form that coercion gives it, and no list stands anywhere
else. -/
structure Canonical (s : Settings) : Prop where
  holds : ∀ field, SettingField.Holds field (s.get field)
  alone : s.sharing = .none

variable {s given : Settings}

/-- Coercion makes new lists of the steps, which stand in their own fields only. -/
theorem build_eq_ok_iff : build given = .ok s ↔
    (∀ field, readField field (given.get field) = .ok (s.get field)) ∧ s.sharing = .none := by
  simp only [build, bind_eq_ok_iff, pure_eq_ok_iff]
  constructor
  · rintro ⟨_, idleMin, _, idleMax, _, actionMin, _, actionMax, _, decibelMin, _, decibelMax, _,
      microphone, _, alert, _, shockMin, _, shockMax, _, vibeMin, _, vibeMax, _, corrections, _,
      affirmations, rfl⟩
    refine ⟨fun field => ?_, rfl⟩
    rcases field with _ | _ | _ | _ | _ | _ | _ | _ | _ | _ | _ | _ | ⟨_ | _⟩ <;> assumption
  · rintro ⟨read, alone⟩
    obtain ⟨_, _, _, _, _, _, _, _, _, _, _, _, _, _, sharing⟩ := s
    obtain rfl : sharing = .none := alone
    exact ⟨_, read .idleMin, _, read .idleMax, _, read .actionMin, _, read .actionMax, _,
      read .decibelMin, _, read .decibelMax, _, read .microphone, _, read .alert, _,
      read .shockMin, _, read .shockMax, _, read .vibeMin, _, read .vibeMax, _,
      read (.steps .corrections), _, read (.steps .affirmations), rfl⟩

/-- Building a canonical configuration again changes nothing. -/
theorem Canonical.build (canonical : s.Canonical) : Settings.build s = .ok s :=
  build_eq_ok_iff.mpr ⟨fun field => (canonical.holds field).read, canonical.alone⟩

theorem canonical_of_build (built : Settings.build given = .ok s)
    (steps : ∀ which (steps : List Step), s.sequence which = stepsValue steps →
      ∀ step ∈ steps, step.Canonical) : s.Canonical := by
  obtain ⟨read, alone⟩ := build_eq_ok_iff.mp built
  refine ⟨fun field => SettingField.holds_of_readField (read field) ?_, alone⟩
  rintro which rfl
  exact steps which

theorem Canonical.steps (canonical : s.Canonical) (which : Sequence) :
    ∃ steps : List Step, s.sequence which = stepsValue steps ∧ ∀ step ∈ steps, step.Canonical :=
  canonical.holds (.steps which)

/-- All fields together make a configuration, whatever they held before. -/
theorem withFields_get (live s : Settings) :
    live.withFields (SettingField.all.map fun field => (field, s.get field)) =
      { s with sharing := live.sharing } := by
  cases s
  rfl

theorem sharing_withFields (live : Settings) (contents : List (SettingField × Value)) :
    (live.withFields contents).sharing = live.sharing := by
  induction contents generalizing live with
  | nil => rfl
  | cons content rest ih =>
    rw [← SettingsOf.sharing_set live content.1 content.2]
    exact ih _

/-- What is built from all fields does not depend on what they held before. -/
theorem build_withFields_get (live s : Settings) :
    Settings.build (live.withFields (SettingField.all.map fun field => (field, s.get field))) =
      Settings.build s := by
  rw [withFields_get]
  rfl

/-- The constructor can be called with what the fields hold, in their order. -/
theorem ofArguments_get (s : Settings) :
    ofArguments (SettingField.all.map s.get) [] = Settings.build s := by
  have named : (SettingField.all.filterMap fun f =>
      (Value.lookup? [] (.text f.name)).map (f, ·)) = [] :=
    List.filterMap_eq_nil_iff.mpr fun _ _ => rfl
  have placed : Settings.build (defaults.withFields
      (SettingField.all.zip (SettingField.all.map s.get))) = Settings.build s :=
    build_withFields_get defaults s
  unfold ofArguments
  rw [named]
  dsimp only
  rw [if_neg (by simp), List.append_nil, placed]

theorem built_iff : s.Built ↔ s.Canonical := by
  constructor
  · rintro ⟨⟨arguments, named, built⟩, steps⟩
    have stepsCanonical : ∀ which (list : List Step), s.sequence which = stepsValue list →
        ∀ step ∈ list, step.Canonical := by
      intro which list isList step member
      refine Step.built_iff.mp (steps which (list.map .step) step ?_ (List.mem_map_of_mem member))
      rw [isList]
      rfl
    unfold ofArguments at built
    dsimp only at built
    split at built
    · cases built
    · exact canonical_of_build built stepsCanonical
  · intro canonical
    refine ⟨⟨_, [], (ofArguments_get s).trans canonical.build⟩, ?_⟩
    intro which items step isItems member
    obtain ⟨list, isList, stepsCanonical⟩ := canonical.steps which
    rw [isList] at isItems
    obtain rfl : list.map .step = items := Option.some.inj isItems
    obtain ⟨_, among, same⟩ := List.mem_map.mp member
    cases same
    exact Step.built_iff.mpr (stepsCanonical _ among)

theorem defaults_valid : Valid defaults := by decide +kernel

end Settings

end TrainingCollar
