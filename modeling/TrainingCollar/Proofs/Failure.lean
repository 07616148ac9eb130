import TrainingCollar.Proofs.Number.Exact
import TrainingCollar.Proofs.Number.Notation
import TrainingCollar.Proofs.Strength

/-! # What computations fail with

`FailsOnly allowed x` says that whatever `x` fails with is allowed; it is carried through a computation
by the rules below. Checks of built contents compare numbers with numbers and can show whatever they
refuse, so validation of a built configuration fails with a violation or not at all:
`Settings.Canonical.failsOnly_validate`.
-/

namespace TrainingCollar

/-- Whatever a computation fails with is allowed. -/
structure FailsOnly {α : Type} (allowed : Fault → Prop) (x : Except Fault α) : Prop where
  allows : ∀ fault, x = .error fault → allowed fault

namespace FailsOnly

variable {α β : Type} {allowed wider : Fault → Prop} {x : Except Fault α}

theorem ok (a : α) : FailsOnly allowed (.ok a) := ⟨nofun⟩

theorem pure (a : α) : FailsOnly allowed (Pure.pure a) := ⟨nofun⟩

theorem error {fault : Fault} (permitted : allowed fault) :
    FailsOnly allowed (.error fault : Except Fault α) := by
  constructor
  intro _ same
  cases same
  exact permitted

theorem bind {f : α → Except Fault β} (first : FailsOnly allowed x)
    (rest : ∀ a, x = .ok a → FailsOnly allowed (f a)) : FailsOnly allowed (x >>= f) := by
  constructor
  intro fault failed
  cases result : x with
  | error cause =>
    rw [result] at failed
    cases failed
    exact first.allows _ result
  | ok a =>
    rw [result] at failed
    exact (rest a result).allows fault failed

theorem map {f : α → β} (holds : FailsOnly allowed x) : FailsOnly allowed (x.map f) := by
  constructor
  intro fault failed
  cases result : x with
  | error cause =>
    rw [result] at failed
    cases failed
    exact holds.allows _ result
  | ok a =>
    rw [result] at failed
    cases failed

theorem ite {p : Prop} [Decidable p] {y : Except Fault α} (first : FailsOnly allowed x)
    (second : FailsOnly allowed y) : FailsOnly allowed (if p then x else y) := by
  split
  · exact first
  · exact second

theorem mono (holds : FailsOnly allowed x) (wide : ∀ fault, allowed fault → wider fault) :
    FailsOnly wider x := by
  constructor
  intro fault failed
  exact wide fault (holds.allows fault failed)

/-- What cannot fail has a result. -/
theorem exists_ok (never : FailsOnly (fun _ => False) x) : ∃ a, x = .ok a := by
  cases result : x with
  | error fault => exact (never.allows fault result).elim
  | ok a => exact ⟨a, rfl⟩

end FailsOnly

/-- The ordinary answer to a bad configuration. -/
def Fault.IsViolation (fault : Fault) : Prop := ∃ violation, fault = .invalid violation

/-- Violations are among what is allowed. -/
def AllowsViolations (allowed : Fault → Prop) : Prop := ∀ violation, allowed (.invalid violation)

theorem allowsViolations_isViolation : AllowsViolations Fault.IsViolation :=
  fun violation => ⟨violation, rfl⟩

/-- A refusal is a violation if all that its wording shows has a text. -/
theorem FailsOnly.refuse {α : Type} {allowed : Fault → Prop} (violations : AllowsViolations allowed)
    {violation : Violation} (shown : ∀ v ∈ violation.shown, v.hasText = true) :
    FailsOnly allowed (TrainingCollar.refuse violation : Except Fault α) := by
  have texts : violation.shown.all Value.hasText = true := List.all_eq_true.mpr shown
  apply FailsOnly.error
  rw [Fault.ofViolation, if_pos texts]
  exact violations violation

section Rules

variable {α : Type} {allowed : Fault → Prop} {x : Except Fault Bool} {y : Except Fault α}
  {violation : Violation}

/-- Two answers of which the second is only asked for if the first is yes. -/
theorem FailsOnly.both {x y : Except Fault Bool} (first : FailsOnly allowed x)
    (second : FailsOnly allowed y) :
    FailsOnly allowed (x >>= fun holds => if holds = true then y else Pure.pure false) := by
  apply FailsOnly.bind first
  intro holds _
  split
  · exact second
  · exact .pure false

/-- A check that has to hold. -/
theorem FailsOnly.demand (refused : FailsOnly allowed (TrainingCollar.refuse violation : Except Fault α))
    (checked : FailsOnly allowed x) (rest : FailsOnly allowed y) : FailsOnly allowed
      (x >>= fun holds => if holds = true then y else TrainingCollar.refuse violation) := by
  apply FailsOnly.bind checked
  intro holds _
  split
  · exact rest
  · exact refused

theorem FailsOnly.forbid (refused : FailsOnly allowed (TrainingCollar.refuse violation : Except Fault α))
    (checked : FailsOnly allowed x) (rest : FailsOnly allowed y) : FailsOnly allowed
      (x >>= fun holds => if (!holds) = true then TrainingCollar.refuse violation else y) := by
  apply FailsOnly.bind checked
  intro holds _
  split
  · exact refused
  · exact rest

/-- A check is made of an item if those before it passed. -/
theorem FailsOnly.checkAll_inOrder {check : α → Except Fault Unit} {list : List α}
    (holds : ∀ before x after, list = before ++ x :: after → (∀ y ∈ before, check y = .ok ()) →
      FailsOnly allowed (check x)) : FailsOnly allowed (Settings.checkAll check list) := by
  induction list with
  | nil => exact .ok ()
  | cons first rest ih =>
    apply FailsOnly.bind (holds [] first rest rfl (List.forall_mem_nil _))
    intro _ passed
    apply ih
    intro before x after same passedLater
    exact holds (first :: before) x after (congrArg _ same) (List.forall_mem_cons.mpr ⟨passed, passedLater⟩)

theorem FailsOnly.checkAll {check : α → Except Fault Unit} {list : List α}
    (holds : ∀ x ∈ list, FailsOnly allowed (check x)) :
    FailsOnly allowed (Settings.checkAll check list) := by
  apply FailsOnly.checkAll_inOrder
  rintro before x after rfl _
  exact holds x (List.mem_append_right _ List.mem_cons_self)

theorem FailsOnly.inStep {result : Except Fault Unit} (violations : AllowsViolations allowed)
    (holds : FailsOnly allowed result) (label : String) :
    FailsOnly allowed (TrainingCollar.inStep label result) := by
  unfold TrainingCollar.inStep
  split
  · exact .refuse violations nofun
  · exact holds

end Rules

/-! ## Texts of built contents -/

theorem Number.Admitted.hasText {n : Number} (admitted : n.Admitted) :
    (Value.ofNumber n).hasText = true := by
  cases n with
  | int n => exact Yaml.fits_of_ofInt? admitted
  | float x => rfl

namespace Value

variable {v : Value}

theorem IsNumber.hasText (number : v.IsNumber) : v.hasText = true := by
  obtain ⟨n, admitted, rfl⟩ := number
  exact admitted.hasText

theorem hasText_list {items : List Value} (all : ∀ item ∈ items, item.hasText = true) :
    (Value.list items).hasText = true := by
  induction items with
  | nil => rfl
  | cons item rest ih =>
    obtain ⟨first, others⟩ := List.forall_mem_cons.mp all
    exact Bool.and_eq_true_iff.mpr ⟨first, ih others⟩

/-- A range has its numbers as items, and as many as a range may have. -/
theorem IsRange.items (range : v.IsRange) : ∃ items, v.items? = some items ∧
    RangeSize items.length ∧ v = .tuple items ∧ ∀ item ∈ items, item.IsNumber := by
  obtain ⟨numbers, size, admitted, rfl⟩ := range
  refine ⟨numbers.map ofNumber, rfl, ?_, rfl, ?_⟩
  · rw [List.length_map]
    exact size
  · intro item member
    obtain ⟨n, among, rfl⟩ := List.mem_map.mp member
    exact ⟨n, admitted n among, rfl⟩

theorem IsChoice.resolution (choice : v.IsChoice .resolution) :
    ∃ mode, v = .choice (.resolution mode) := by
  obtain ⟨c, isFamily, rfl⟩ := choice
  cases c with
  | resolution mode => exact ⟨mode, rfl⟩
  | stimulus | alert => cases isFamily

theorem IsChoice.stimulus (choice : v.IsChoice .stimulus) :
    ∃ kind, v = .choice (.stimulus kind) := by
  obtain ⟨c, isFamily, rfl⟩ := choice
  cases c with
  | stimulus kind => exact ⟨kind, rfl⟩
  | resolution | alert => cases isFamily

theorem IsChoice.alert (choice : v.IsChoice .alert) : ∃ alert, v = .choice (.alert alert) := by
  obtain ⟨c, isFamily, rfl⟩ := choice
  cases c with
  | alert alert => exact ⟨alert, rfl⟩
  | stimulus | resolution => cases isFamily

end Value

/-! ## Checks of built contents -/

section Checks

variable {allowed : Fault → Prop} {v w : Value} {items : List Value}

theorem failsOnly_atMost (left : v.IsNumber) (right : w.IsNumber) :
    FailsOnly allowed (atMost v w) := by
  unfold atMost
  rw [left.le?_eq right]
  exact .ok _

theorem isNumber_zero : Value.IsNumber (.int 0) := Value.isNumber_int (by decide +kernel)

theorem failsOnly_notNegative (number : v.IsNumber) : FailsOnly allowed (notNegative v) :=
  failsOnly_atMost isNumber_zero number

theorem failsOnly_noneNegative (numbers : ∀ item ∈ items, item.IsNumber) :
    FailsOnly allowed (noneNegative items) := by
  induction items with
  | nil => exact .ok _
  | cons item rest ih =>
    obtain ⟨first, others⟩ := List.forall_mem_cons.mp numbers
    exact .both (failsOnly_notNegative first) (ih others)

theorem failsOnly_withinBounds {low high : Value} (lowNumber : low.IsNumber)
    (highNumber : high.IsNumber) (numbers : ∀ item ∈ items, item.IsNumber) (nonempty : items ≠ []) :
    FailsOnly allowed (withinBounds low high items) := by
  obtain ⟨first, rest, rfl⟩ := List.exists_cons_of_ne_nil nonempty
  have least := numbers _ (foldl_mem (fun a b => b.le? a == some true) first rest)
  have greatest := numbers _ (foldl_mem (fun a b => a.le? b == some true) first rest)
  exact .both (failsOnly_atMost lowNumber least)
    (.both (failsOnly_atMost least greatest) (failsOnly_atMost greatest highNumber))

variable (violations : AllowsViolations allowed)
include violations

/-- Two numbers are compared, and can be shown. -/
theorem failsOnly_ordered {low high : Value} (name : String) (lowNumber : low.IsNumber)
    (highNumber : high.IsNumber) : FailsOnly allowed (do
      if ← atMost low high then return () else refuse (.reversedRange name low high)) := by
  refine .demand (.refuse violations ?_) (failsOnly_atMost lowNumber highNumber) (.pure ())
  simp [Violation.shown, lowNumber.hasText, highNumber.hasText]

theorem failsOnly_validateRange (name : String) (isMode : v.IsChoice .resolution)
    (isRange : w.IsRange) : FailsOnly allowed (validateRange name v w) := by
  obtain ⟨mode, rfl⟩ := isMode.resolution
  obtain ⟨items, isItems, few, rfl, numbers⟩ := isRange.items
  change FailsOnly allowed (if _ then _ else if _ then _ else
    noneNegative items >>= fun holds => if holds = true then _ else _)
  split
  · exact .refuse violations nofun
  · split
    · exact .refuse violations nofun
    · refine .demand (.refuse violations fun item member => (numbers item member).hasText)
        (failsOnly_noneNegative numbers) ?_
      split
      · next two =>
        obtain ⟨low, high, rfl⟩ := List.length_eq_two.mp two
        obtain ⟨lowNumber, highNumber⟩ : low.IsNumber ∧ high.IsNumber := by simpa using numbers
        exact failsOnly_ordered violations name lowNumber highNumber
      · exact .pure ()

/-- A step is checked against bounds that are numbers, without anything but a violation. -/
theorem Step.Canonical.failsOnly_validate {s : Step} (canonical : s.Canonical)
    {bounds : Stimulus → Option (Value × Value)}
    (numbers : ∀ kind low high, bounds kind = some (low, high) → low.IsNumber ∧ high.IsNumber)
    (label : String) : FailsOnly allowed (validateStep s (fun kind => .ok (bounds kind)) label) := by
  obtain ⟨kind, isKind⟩ := canonical.kind.stimulus
  obtain ⟨items, isItems, few, _, strengths⟩ := canonical.strength.items
  have nonempty : items ≠ [] := by
    rintro rfl
    cases few <;> contradiction
  unfold validateStep
  rw [isKind]
  refine .forbid (.refuse violations nofun) (failsOnly_notNegative canonical.startDelay) ?_
  refine .forbid (.refuse violations nofun) (failsOnly_notNegative canonical.endDelay) ?_
  refine .forbid (.refuse violations ?_) (failsOnly_atMost canonical.startDelay canonical.endDelay) ?_
  · simp [Violation.shown, canonical.startDelay.hasText, canonical.endDelay.hasText]
  · refine .bind (.inStep violations (.bind ?_ ?_) label) ?_
    · exact failsOnly_validateRange violations _ canonical.timeMode canonical.time
    · intro _ _
      exact failsOnly_validateRange violations _ canonical.strengthMode canonical.strength
    · intro _ _
      refine .bind (.ok (bounds kind)) ?_
      rintro _ ⟨⟩
      split
      · exact .pure ()
      · next low high isBounds =>
        obtain ⟨lowNumber, highNumber⟩ := numbers kind low high isBounds
        rw [itemsOf_eq_ok_iff.mpr isItems]
        refine .demand (.refuse violations ?_)
          (failsOnly_withinBounds lowNumber highNumber strengths nonempty) (.pure ())
        simp only [Violation.shown, List.forall_mem_cons]
        exact ⟨lowNumber.hasText, highNumber.hasText,
          fun item member => (strengths item member).hasText⟩

end Checks

namespace Settings

variable {allowed : Fault → Prop} {s : Settings}

theorem Canonical.isNumber (canonical : s.Canonical) {field : SettingField}
    (numeric : field.isNumeric = true) : (s.get field).IsNumber := by
  have holds := canonical.holds field
  cases field with
  | alert | steps => cases numeric
  | _ => exact holds

theorem Canonical.ordered_isNumber (canonical : s.Canonical) {pair : SettingField × SettingField}
    (member : pair ∈ orderedPairs) : (s.get pair.1).IsNumber ∧ (s.get pair.2).IsNumber :=
  (orderedPairs_isNumeric pair member).imp canonical.isNumber canonical.isNumber

theorem Canonical.period_isNumber (canonical : s.Canonical) {field : SettingField}
    (member : field ∈ periodFields) : (s.get field).IsNumber :=
  canonical.isNumber (periodFields_isNumeric field member)

theorem Canonical.strength_isNumber (canonical : s.Canonical) {field : SettingField}
    (member : field ∈ strengthFields) : (s.get field).IsNumber :=
  canonical.isNumber (strengthFields_isNumeric field member)

theorem Canonical.items (canonical : s.Canonical) (which : Sequence) : ∃ steps : List Step,
    (s.sequence which).items? = some (steps.map .step) ∧ ∀ step ∈ steps, step.Canonical := by
  obtain ⟨steps, isSteps, all⟩ := canonical.steps which
  rw [isSteps]
  exact ⟨steps, rfl, all⟩

theorem Canonical.strengthBounds (canonical : s.Canonical) {kind : Stimulus} {low high : Value}
    (isBounds : s.strengthBounds kind = some (low, high)) : low.IsNumber ∧ high.IsNumber := by
  cases kind with
  | shock =>
    cases isBounds
    exact ⟨canonical.holds .shockMin, canonical.holds .shockMax⟩
  | vibration =>
    cases isBounds
    exact ⟨canonical.holds .vibeMin, canonical.holds .vibeMax⟩
  | beep => cases isBounds

theorem Canonical.failsOnly_validateAlert (canonical : s.Canonical) :
    FailsOnly allowed s.validateAlert := by
  obtain ⟨alert, isAlert⟩ := Value.IsChoice.alert (canonical.holds .alert)
  rw [validateAlert_eq_ok_iff.mpr ⟨alert, isAlert⟩]
  exact .ok ()

variable (violations : AllowsViolations allowed)
include violations

theorem Canonical.failsOnly_validatePair (canonical : s.Canonical)
    {pair : SettingField × SettingField} (member : pair ∈ orderedPairs) :
    FailsOnly allowed (s.validatePair pair) := by
  obtain ⟨low, high⟩ := canonical.ordered_isNumber member
  refine .demand (.refuse violations ?_) (failsOnly_atMost low high) (.pure ())
  simp [Violation.shown, low.hasText, high.hasText]

theorem Canonical.failsOnly_validatePeriod (canonical : s.Canonical) {field : SettingField}
    (member : field ∈ periodFields) : FailsOnly allowed (s.validatePeriod field) := by
  have number := canonical.period_isNumber member
  exact .demand (.refuse violations nofun) (failsOnly_notNegative number) (.pure ())

theorem Canonical.failsOnly_validateStrength (canonical : s.Canonical) {field : SettingField}
    (member : field ∈ strengthFields) : FailsOnly allowed (s.validateStrength field) := by
  have number := canonical.strength_isNumber member
  have shown : ∀ v ∈ (Violation.outsideDevice field (s.get field)).shown, v.hasText = true := by
    simp [Violation.shown, number.hasText]
  exact .demand (.refuse violations shown) (failsOnly_atMost isNumber_zero number)
    (.demand (.refuse violations shown)
      (failsOnly_atMost number (Value.isNumber_int (by decide +kernel))) (.pure ()))

theorem Canonical.failsOnly_validateMicrophone (canonical : s.Canonical) :
    FailsOnly allowed s.validateMicrophone := by
  have number : s.microphone.IsNumber := canonical.holds .microphone
  have shown : ∀ v ∈ (Violation.unsupportedMicrophone s.microphone).shown, v.hasText = true := by
    simpa [Violation.shown] using number.hasText
  unfold validateMicrophone
  split
  · next n isInt =>
    rw [isInt] at shown
    split
    · exact .ok ()
    · exact .refuse violations shown
  · exact .refuse violations shown

theorem Canonical.failsOnly_validateSteps (canonical : s.Canonical) {steps : List Step}
    (all : ∀ step ∈ steps, step.Canonical) (name : String) (index : Nat) :
    FailsOnly allowed (s.validateSteps name index (steps.map .step)) := by
  induction steps generalizing index with
  | nil => exact .ok ()
  | cons step rest ih =>
    obtain ⟨first, others⟩ := List.forall_mem_cons.mp all
    refine .bind (.ok step) ?_
    rintro _ ⟨⟩
    apply FailsOnly.bind (first.failsOnly_validate violations (fun _ _ _ => canonical.strengthBounds) _)
    intro _ _
    exact ih others (index + 1)

theorem Canonical.failsOnly_validateSequence (canonical : s.Canonical) (which : Sequence) :
    FailsOnly allowed (s.validateSequence which) := by
  obtain ⟨steps, isItems, all⟩ := canonical.items which
  unfold validateSequence
  rw [itemsOf_eq_ok_iff.mpr isItems]
  exact canonical.failsOnly_validateSteps violations all which.name 0

/-- Validation of a configuration with canonical contents fails with a violation or not at all. -/
theorem Canonical.failsOnly_validate (canonical : s.Canonical) : FailsOnly allowed s.validate := by
  apply FailsOnly.bind (.checkAll fun _ member => canonical.failsOnly_validatePair violations member)
  intro _ _
  apply FailsOnly.bind (.checkAll fun _ member => canonical.failsOnly_validatePeriod violations member)
  intro _ _
  apply FailsOnly.bind (.checkAll fun _ member => canonical.failsOnly_validateStrength violations member)
  intro _ _
  apply FailsOnly.bind (canonical.failsOnly_validateMicrophone violations)
  intro _ _
  apply FailsOnly.bind (canonical.failsOnly_validateAlert)
  intro _ _
  exact .checkAll fun which _ => canonical.failsOnly_validateSequence violations which

end Settings

end TrainingCollar
