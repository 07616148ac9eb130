import TrainingCollar.Proofs.Coercion

/-! # Validation check by check

Validation is a list of checks, each of which refuses for a reason of its own: first those of the fields,
then those of the steps, one step after the other. `Check` names them, and `Check.run` makes a single one
of them, whatever the others come to. Validation comes to the first of them that fails:
`Settings.Canonical.validate_eq_failing`.
-/

namespace TrainingCollar

/-! ## Lists of checks -/

section Lists

variable {α β : Type}

open Settings (checkAll)

theorem check_bind_ok (x : Except Fault Unit) : (x >>= fun _ => .ok ()) = x := by
  cases x <;> rfl

theorem checkAll_append (check : α → Except Fault Unit) (first second : List α) :
    checkAll check (first ++ second) = (checkAll check first >>= fun _ => checkAll check second) := by
  induction first with
  | nil => rfl
  | cons x rest ih =>
    change (check x >>= fun _ => checkAll check (rest ++ second)) = _
    rw [ih]
    rw [checkAll]
    cases check x <;> rfl

theorem checkAll_map (check : α → Except Fault Unit) (f : β → α) (list : List β) :
    checkAll check (list.map f) = checkAll (fun x => check (f x)) list := by
  induction list with
  | nil => rfl
  | cons x rest ih => rw [List.map_cons, checkAll, checkAll, ih]

theorem checkAll_flatMap (check : α → Except Fault Unit) (f : β → List α) (list : List β) :
    checkAll check (list.flatMap f) = checkAll (fun x => checkAll check (f x)) list := by
  induction list with
  | nil => rfl
  | cons x rest ih => rw [List.flatMap_cons, checkAll_append, ih, checkAll]

/-- A list of checks comes to the first that fails. -/
theorem checkAll_eq_find? (check : α → Except Fault Unit) (list : List α) :
    checkAll check list = (list.find? fun x => !(check x).isOk).elim (.ok ()) check := by
  induction list with
  | nil => rfl
  | cons x rest ih =>
    rw [checkAll, ih, List.find?_cons]
    cases checked : check x with
    | error fault => exact checked.symm
    | ok => rfl

end Lists

/-! ## Ranges -/

/-- The checks of a range. -/
inductive RangeCheck where
  | mode
  | size
  /-- Only a fixed range may have a single value. -/
  | lone
  | negative
  | order
deriving DecidableEq

namespace RangeCheck

/-- The checks in their order. -/
def all : List RangeCheck := [mode, size, lone, negative, order]

theorem mem_all (check : RangeCheck) : check ∈ all := by cases check <;> decide

/-- Makes one check of a range. -/
def run (name : String) (mode values : Value) : RangeCheck → Except Fault Unit
  | .mode =>
    match mode with
    | .choice (.resolution _) => .ok ()
    | _ => refuse (.notResolution name mode)
  | .size => do
    let size ← sizeOfValue values
    if size ≠ 1 ∧ size ≠ 2 then refuse (.rangeSize name size) else return ()
  | .lone =>
    match mode with
    | .choice (.resolution mode) => do
      let size ← sizeOfValue values
      if size = 1 ∧ mode ≠ .fixed then refuse (.loneValue name mode) else return ()
    | _ => .ok ()
  | .negative => do
    let items ← itemsOf values
    if ← noneNegative items then return () else refuse (.negativeValues name items)
  | .order => do
    let size ← sizeOfValue values
    if size = 2 then
      let low ← itemAt values 0
      let high ← itemAt values 1
      if ← atMost low high then return ()
      else refuse (.reversedRange name low high)
    else return ()

end RangeCheck

theorem validateRange_eq (name : String) (mode values : Value) : validateRange name mode values =
    Settings.checkAll (RangeCheck.run name mode values) RangeCheck.all := by
  simp only [RangeCheck.all, Settings.checkAll, check_bind_ok]
  unfold validateRange
  split
  · next m =>
    cases isItems : values.items? with
    | none => simp only [RangeCheck.run, sizeOfValue, isItems]; rfl
    | some items =>
      have size : sizeOfValue values = .ok items.length := sizeOfValue_eq_ok_iff.mpr ⟨items, isItems, rfl⟩
      have all : itemsOf values = .ok items := itemsOf_eq_ok_iff.mpr isItems
      simp only [RangeCheck.run, size, all, bind, Except.bind]
      split
      · rfl
      · split
        · rfl
        · cases noneNegative items with
          | error fault => rfl
          | ok holds => cases holds <;> rfl
  · next other =>
    simp only [RangeCheck.run]
    rfl

/-! ## Steps -/

/-- The checks of a step. -/
inductive StepCheck where
  | kind
  /-- Neither of the delays is negative. -/
  | delays
  | delayOrder
  | time (check : RangeCheck)
  | strength (check : RangeCheck)
  /-- The strength lies within the bounds of its stimulus. -/
  | bounds
deriving DecidableEq

namespace StepCheck

/-- The checks in their order. -/
def all : List StepCheck :=
  [kind, delays, delayOrder] ++ RangeCheck.all.map time ++ RangeCheck.all.map strength ++ [bounds]

theorem mem_all (check : StepCheck) : check ∈ all := by
  cases check <;> simp [all, RangeCheck.mem_all]

/-- Makes one check of a labelled step. -/
def run (s : Step) (bounds : Stimulus → Option (Value × Value)) (label : String) :
    StepCheck → Except Fault Unit
  | .kind =>
    match s.kind with
    | .choice (.stimulus _) => .ok ()
    | other => refuse (.notStimulus label other)
  | .delays => do
    if !(← notNegative s.startDelay) then refuse (.negativeDelay label)
    else if !(← notNegative s.endDelay) then refuse (.negativeDelay label)
    else return ()
  | .delayOrder => do
    if !(← atMost s.startDelay s.endDelay) then
      refuse (.reversedDelays label s.startDelay s.endDelay)
    else return ()
  | .time check => inStep label (check.run StepField.time.name s.timeMode s.time)
  | .strength check => inStep label (check.run StepField.strength.name s.strengthMode s.strength)
  | .bounds =>
    match s.kind with
    | .choice (.stimulus stimulus) =>
      match bounds stimulus with
      | none => .ok ()
      | some (low, high) => do
        let values ← itemsOf s.strength
        if ← withinBounds low high values then return ()
        else refuse (.strengthOutside label values stimulus low high)
    | _ => .ok ()

end StepCheck

/-- A label is put before whatever fails first. -/
theorem inStep_bind (label : String) (x y : Except Fault Unit) :
    inStep label (x >>= fun _ => y) = (inStep label x >>= fun _ => inStep label y) := by
  cases x with
  | ok => rfl
  | error fault => cases fault <;> rfl

theorem inStep_checkAll {α : Type} (label : String) (check : α → Except Fault Unit) (list : List α) :
    inStep label (Settings.checkAll check list) =
      Settings.checkAll (fun x => inStep label (check x)) list := by
  induction list with
  | nil => rfl
  | cons x rest ih => rw [Settings.checkAll, Settings.checkAll, inStep_bind, ih]

/-- A refusal ends what is done. -/
theorem refuse_if_bind {α β : Type} {p : Prop} [Decidable p] {violation : Violation} {y : Except Fault α}
    {f : α → Except Fault β} : ((if p then refuse violation else y) >>= f) =
      if p then refuse violation else y >>= f := by
  split <;> rfl

theorem validateStep_eq (s : Step) (bounds : Stimulus → Option (Value × Value)) (label : String) :
    validateStep s (fun kind => .ok (bounds kind)) label =
      Settings.checkAll (StepCheck.run s bounds label) StepCheck.all := by
  simp only [StepCheck.all, checkAll_append, checkAll_map, StepCheck.run, ← inStep_checkAll,
    ← validateRange_eq, Settings.checkAll, check_bind_ok]
  unfold validateStep
  split
  · next kind isKind =>
    simp only [isKind, inStep_bind, bind_assoc, refuse_if_bind, pure_bind]
    cases bounds kind <;> rfl
  · next other _ =>
    simp only [refuse]
    rfl

/-! ## Configurations -/

/-- The step that a value is, if it is one. -/
def Value.step? : Value → Option Step
  | .step s => some s
  | _ => none

/-- The checks of a configuration. -/
inductive Check where
  | pair (fields : SettingField × SettingField)
  | period (field : SettingField)
  | strength (field : SettingField)
  | microphone
  | alert
  /-- A check of one step of a sequence. -/
  | step (which : Sequence) (index : Nat) (check : StepCheck)
deriving DecidableEq

namespace Settings

/-- The steps of a sequence. -/
def stepsIn (s : Settings) (which : Sequence) : List Step :=
  ((s.sequence which).items?.getD []).filterMap Value.step?

variable {s : Settings} {which : Sequence} {steps : List Step}

theorem stepsIn_of_holds (holds : s.sequence which = stepsValue steps) : s.stepsIn which = steps := by
  simp only [stepsIn, holds, stepsValue, Value.items?_list, Option.getD_some, List.filterMap_map]
  exact List.filterMap_some

theorem Canonical.sequence_eq (canonical : s.Canonical) (which : Sequence) :
    s.sequence which = stepsValue (s.stepsIn which) := by
  obtain ⟨steps, isSteps, _⟩ := canonical.steps which
  rw [stepsIn_of_holds isSteps, isSteps]

end Settings

namespace Check

/-- Makes one check of a configuration. -/
def run (s : Settings) : Check → Except Fault Unit
  | .pair fields => s.validatePair fields
  | .period field => s.validatePeriod field
  | .strength field => s.validateStrength field
  | .microphone => s.validateMicrophone
  | .alert => s.validateAlert
  | .step which index check =>
    match (s.stepsIn which)[index]? with
    | some found => check.run found s.strengthBounds (Violation.label which.name index)
    | none => .ok ()

/-- The configuration has what the check is about. -/
def Concerns (s : Settings) : Check → Prop
  | .pair fields => fields ∈ Settings.orderedPairs
  | .period field => field ∈ Settings.periodFields
  | .strength field => field ∈ Settings.strengthFields
  | .microphone | .alert => True
  | .step which index _ => index < (s.stepsIn which).length

end Check

namespace Settings

variable {s : Settings} {which : Sequence} {steps : List Step}

/-- The checks of some steps of a sequence, given the position of the first. -/
def stepChecks (which : Sequence) (index count : Nat) : List Check :=
  (List.range' index count).flatMap fun position => StepCheck.all.map (.step which position)

/-- The checks of a configuration in their order. -/
def checks (s : Settings) : List Check :=
  orderedPairs.map .pair ++ periodFields.map .period ++ strengthFields.map .strength ++
    .microphone :: .alert ::
      Sequence.all.flatMap fun which => stepChecks which 0 (s.stepsIn which).length

theorem mem_checks {check : Check} : check ∈ s.checks ↔ check.Concerns s := by
  cases check <;> simp [Check.Concerns, checks, stepChecks, Sequence.mem_all, StepCheck.mem_all]

/-- The first check that fails. -/
def failing? (s : Settings) : Option Check := s.checks.find? fun check => !(check.run s).isOk

theorem validateSteps_eq {before : List Step} (isSteps : s.stepsIn which = before ++ steps) :
    s.validateSteps which.name before.length (steps.map .step) =
      checkAll (Check.run s) (stepChecks which before.length steps.length) := by
  induction steps generalizing before with
  | nil => rfl
  | cons step rest ih =>
    have others := @ih (before ++ [step]) (by rw [isSteps, List.append_assoc, List.singleton_append])
    have here (check : StepCheck) : Check.run s (.step which before.length check) =
        check.run step s.strengthBounds (Violation.label which.name before.length) := by
      have stands : (s.stepsIn which)[before.length]? = some step := by
        rw [isSteps, List.getElem?_append_right (Nat.le_refl _), Nat.sub_self, List.getElem?_cons_zero]
      simp only [Check.run, stands]
    rw [List.length_append, List.length_singleton] at others
    rw [List.length_cons, stepChecks, List.range'_succ, List.flatMap_cons, checkAll_append, checkAll_map,
      funext here, ← validateStep_eq, ← stepChecks, ← others]
    rfl

theorem Canonical.validateSequence_eq (canonical : s.Canonical) (which : Sequence) :
    s.validateSequence which =
      checkAll (Check.run s) (stepChecks which 0 (s.stepsIn which).length) := by
  rw [validateSequence, canonical.sequence_eq which]
  exact validateSteps_eq (List.nil_append _).symm

theorem Canonical.validate_eq (canonical : s.Canonical) : s.validate = checkAll (Check.run s) s.checks := by
  have sequences : s.validateSequence = fun which =>
      checkAll (Check.run s) (stepChecks which 0 (s.stepsIn which).length) :=
    funext canonical.validateSequence_eq
  simp only [checks, checkAll_append, checkAll_map, checkAll, checkAll_flatMap, ← sequences, bind_assoc]
  rfl

/-- Validation comes to the first check that fails. -/
theorem Canonical.validate_eq_failing (canonical : s.Canonical) :
    s.validate = s.failing?.elim (.ok ()) (Check.run s) := by
  rw [canonical.validate_eq, checkAll_eq_find?, failing?]

end Settings

end TrainingCollar
