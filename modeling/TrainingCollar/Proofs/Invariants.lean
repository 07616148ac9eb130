import TrainingCollar.Proofs.Failure
import TrainingCollar.Proofs.SettingsFile

/-! # The invariants of a configuration

The invariants as they are documented, in terms of the exact values of the fields and with no mention
of the order in which validation checks them. `Settings.Built.validate_decides`: validation accepts a
configuration that was built, like each of its steps, if and only if these invariants hold, and it
answers with a violation otherwise.
-/

namespace TrainingCollar

/-- The exact values of the items of a range. -/
def Value.exacts (v : Value) : List ℚ := (v.items?.getD []).map Value.exact

/-- One fixed value, or two values in ascending order, and none of them is negative. -/
structure RangeInvariant (mode : Value) (values : List ℚ) : Prop where
  shape : (∃ value, values = [value] ∧ mode = .choice (.resolution .fixed)) ∨
    ∃ low high, values = [low, high] ∧ low ≤ high
  notNegative : ∀ value ∈ values, 0 ≤ value

/-- The invariants of a step of a configuration. A beep has no strength to bound. -/
structure Step.Invariants (s : Step) (c : Settings) : Prop where
  startDelay : 0 ≤ s.startDelay.exact
  delays : s.startDelay.exact ≤ s.endDelay.exact
  time : RangeInvariant s.timeMode s.time.exacts
  strength : RangeInvariant s.strengthMode s.strength.exacts
  shock : s.kind = .choice (.stimulus .shock) →
    ∀ value ∈ s.strength.exacts, c.shockMin.exact ≤ value ∧ value ≤ c.shockMax.exact
  vibration : s.kind = .choice (.stimulus .vibration) →
    ∀ value ∈ s.strength.exacts, c.vibeMin.exact ≤ value ∧ value ≤ c.vibeMax.exact

/-- The invariants of a configuration. -/
structure Settings.Invariants (s : Settings) : Prop where
  idle : 0 ≤ s.idleMin.exact ∧ s.idleMin.exact ≤ s.idleMax.exact
  action : 0 ≤ s.actionMin.exact ∧ s.actionMin.exact ≤ s.actionMax.exact
  decibel : s.decibelMin.exact ≤ s.decibelMax.exact
  shock : 0 ≤ s.shockMin.exact ∧ s.shockMin.exact ≤ s.shockMax.exact ∧ s.shockMax.exact ≤ 100
  vibe : 0 ≤ s.vibeMin.exact ∧ s.vibeMin.exact ≤ s.vibeMax.exact ∧ s.vibeMax.exact ≤ 100
  microphone : ∃ n ∈ [(26 : Int), 27, 28, 29], s.microphone = .int n
  steps : ∀ which items (step : Step), (s.sequence which).items? = some items →
    .step step ∈ items → step.Invariants s

namespace Value

variable {v : Value} {items : List Value}

theorem IsNumber.zero_le?_iff (number : v.IsNumber) :
    (Value.int 0).le? v = some true ↔ 0 ≤ v.exact := by
  rw [isNumber_zero.le?_iff number, exact_int, Int.cast_zero]

theorem IsNumber.numeric (number : v.IsNumber) : v.Numeric := by
  obtain ⟨n, admitted, rfl⟩ := number
  obtain ⟨units, isPlace, _⟩ := admitted.place_eq
  exact ⟨n, .at units, number?_ofNumber n, isPlace⟩

theorem zero_le?_all_iff (numbers : ∀ item ∈ items, item.IsNumber) :
    (∀ item ∈ items, (Value.int 0).le? item = some true) ↔ ∀ value ∈ items.map exact, 0 ≤ value := by
  rw [List.forall_mem_map]
  exact forall₂_congr fun item member => (numbers item member).zero_le?_iff

end Value

/-- For numbers, a range that validation accepts is one that has the invariant. -/
theorem rangeAccepted_iff {mode values : Value} (isMode : mode.IsChoice .resolution)
    (isRange : values.IsRange) : RangeAccepted mode values ↔ RangeInvariant mode values.exacts := by
  obtain ⟨m, rfl⟩ := isMode.resolution
  obtain ⟨items, _, few, rfl, numbers⟩ := isRange.items
  constructor
  · rintro ⟨_, _, ⟨⟩, ⟨⟩, shape, notNegative⟩
    refine ⟨?_, (Value.zero_le?_all_iff numbers).mp notNegative⟩
    rcases shape with ⟨one, rfl⟩ | ⟨two, low, high, isLow, isHigh, ordered⟩
    · obtain ⟨value, rfl⟩ := List.length_eq_one_iff.mp one
      exact .inl ⟨value.exact, rfl, rfl⟩
    · obtain ⟨_, _, rfl⟩ := List.length_eq_two.mp two
      cases isLow
      cases isHigh
      have isOrdered := (numbers low (by simp)).le?_iff (numbers high (by simp))
      exact .inr ⟨low.exact, high.exact, rfl, isOrdered.mp ordered⟩
  · rintro ⟨shape, notNegative⟩
    refine ⟨m, items, rfl, rfl, ?_, (Value.zero_le?_all_iff numbers).mpr notNegative⟩
    rcases few with one | two
    · obtain ⟨value, rfl⟩ := List.length_eq_one_iff.mp one
      rcases shape with ⟨_, _, fixed⟩ | ⟨_, _, pair, _⟩
      · cases fixed
        exact .inl ⟨rfl, rfl⟩
      · cases pair
    · obtain ⟨low, high, rfl⟩ := List.length_eq_two.mp two
      rcases shape with ⟨_, single, _⟩ | ⟨_, _, pair, ordered⟩
      · cases single
      · cases pair
        have isOrdered := (numbers low (by simp)).le?_iff (numbers high (by simp))
        exact .inr ⟨rfl, low, high, rfl, rfl, isOrdered.mpr ordered⟩

/-- Strengths lie within bounds if each of their exact values does. -/
theorem withinBounds_iff {low high strength : Value} (lowNumber : low.IsNumber)
    (highNumber : high.IsNumber) (isRange : strength.IsRange) :
    (∃ items, strength.items? = some items ∧ withinBounds low high items = .ok true) ↔
      ∀ value ∈ strength.exacts, low.exact ≤ value ∧ value ≤ high.exact := by
  obtain ⟨items, _, few, rfl, numbers⟩ := isRange.items
  have between : (∀ v ∈ items, low.le? v = some true ∧ v.le? high = some true) ↔
      ∀ value ∈ (Value.tuple items).exacts, low.exact ≤ value ∧ value ≤ high.exact := by
    refine Iff.trans ?_ List.forall_mem_map.symm
    exact forall₂_congr fun v member => and_congr (lowNumber.le?_iff (numbers v member))
      ((numbers v member).le?_iff highNumber)
  cases items with
  | nil => cases few <;> contradiction
  | cons first rest =>
    have numeric : ∀ v ∈ first :: rest, v.Numeric := fun v member => (numbers v member).numeric
    rw [← between, ← withinBounds_eq_true_iff lowNumber.numeric numeric]
    constructor
    · rintro ⟨_, ⟨⟩, inside⟩
      exact inside
    · intro inside
      exact ⟨_, rfl, inside⟩

/-- A canonical step that is accepted is one that has the invariants. -/
theorem Step.Canonical.accepted_iff {s : Step} {c : Settings} (step : s.Canonical)
    (canonical : c.Canonical) : s.Accepted c.strengthBounds ↔ s.Invariants c := by
  have time := rangeAccepted_iff step.timeMode step.time
  have strength := rangeAccepted_iff step.strengthMode step.strength
  have delays := step.startDelay.le?_iff step.endDelay
  have shock := withinBounds_iff (canonical.holds .shockMin) (canonical.holds .shockMax) step.strength
  have vibration := withinBounds_iff (canonical.holds .vibeMin) (canonical.holds .vibeMax) step.strength
  constructor
  · intro accepted
    obtain ⟨kind, isKind, bounded⟩ := accepted.bounded
    refine ⟨step.startDelay.zero_le?_iff.mp accepted.startDelay, delays.mp accepted.delays,
      time.mp accepted.time, strength.mp accepted.strength, ?_, ?_⟩
    · intro isShock
      cases isKind.symm.trans isShock
      exact shock.mp (bounded _ _ rfl)
    · intro isVibration
      cases isKind.symm.trans isVibration
      exact vibration.mp (bounded _ _ rfl)
  · intro invariants
    obtain ⟨kind, isKind⟩ := step.kind.stimulus
    have endDelay := invariants.startDelay.trans invariants.delays
    refine ⟨step.startDelay.zero_le?_iff.mpr invariants.startDelay,
      step.endDelay.zero_le?_iff.mpr endDelay, delays.mpr invariants.delays,
      time.mpr invariants.time, strength.mpr invariants.strength, kind, isKind, ?_⟩
    intro low high bounds
    cases kind with
    | shock =>
      cases bounds
      exact shock.mpr (invariants.shock isKind)
    | vibration =>
      cases bounds
      exact vibration.mpr (invariants.vibration isKind)
    | beep => cases bounds

namespace Settings

variable {s : Settings}

/-- For numbers, the order of fields is the order of their exact values. -/
theorem Canonical.ordered_iff (canonical : s.Canonical) :
    (∀ pair ∈ orderedPairs, (s.get pair.1).le? (s.get pair.2) = some true) ↔
      ∀ pair ∈ orderedPairs, (s.get pair.1).exact ≤ (s.get pair.2).exact := by
  refine forall₂_congr fun pair member => ?_
  obtain ⟨low, high⟩ := canonical.ordered_isNumber member
  exact low.le?_iff high

theorem Canonical.periods_iff (canonical : s.Canonical) :
    (∀ field ∈ periodFields, (Value.int 0).le? (s.get field) = some true) ↔
      ∀ field ∈ periodFields, 0 ≤ (s.get field).exact :=
  forall₂_congr fun _ member => (canonical.period_isNumber member).zero_le?_iff

theorem Canonical.strengths_iff (canonical : s.Canonical) :
    (∀ field ∈ strengthFields, (Value.int deviceMin).le? (s.get field) = some true ∧
        (s.get field).le? (.int deviceMax) = some true) ↔
      ∀ field ∈ strengthFields, 0 ≤ (s.get field).exact ∧ (s.get field).exact ≤ 100 := by
  refine forall₂_congr fun field member => ?_
  have number := canonical.strength_isNumber member
  have greatest : Value.IsNumber (.int deviceMax) := Value.isNumber_int (by decide +kernel)
  have below : (s.get field).le? (.int deviceMax) = some true ↔ (s.get field).exact ≤ 100 := by
    rw [number.le?_iff greatest, Value.exact_int]
    norm_num [deviceMax]
  exact and_congr number.zero_le?_iff below

theorem Canonical.steps_iff (canonical : s.Canonical) :
    (∀ which, ∃ steps : List Step, (s.sequence which).items? = some (steps.map .step) ∧
        ∀ step ∈ steps, step.Accepted s.strengthBounds) ↔
      ∀ which items (step : Step), (s.sequence which).items? = some items → .step step ∈ items →
        step.Invariants s := by
  refine forall_congr' fun which => ?_
  obtain ⟨steps, isItems, all⟩ := canonical.items which
  have among {step : Step} {steps : List Step} (member : .step step ∈ steps.map Value.step) :
      step ∈ steps := (List.mem_map_of_injective fun _ _ => Value.step.inj).mp member
  constructor
  · rintro ⟨others, isOthers, accepted⟩ items step isThese member
    obtain rfl : items = others.map .step := Option.some.inj (isThese.symm.trans isOthers)
    have same : others.map Value.step = steps.map Value.step :=
      Option.some.inj (isOthers.symm.trans isItems)
    have step_mem := among (same ▸ member)
    exact ((all step step_mem).accepted_iff canonical).mp (accepted step (among member))
  · intro invariants
    refine ⟨steps, isItems, ?_⟩
    intro step member
    have step_mem : Value.step step ∈ steps.map .step := List.mem_map_of_mem member
    exact ((all step member).accepted_iff canonical).mpr (invariants _ step isItems step_mem)

theorem Canonical.sound_iff (canonical : s.Canonical) : s.Sound ↔ s.Invariants := by
  constructor
  · intro sound
    have ordered := canonical.ordered_iff.mp sound.ordered
    have periods := canonical.periods_iff.mp sound.periods
    have strengths := canonical.strengths_iff.mp sound.strengths
    simp only [orderedPairs, List.forall_mem_cons] at ordered
    simp only [periodFields, List.forall_mem_cons] at periods
    simp only [strengthFields, List.forall_mem_cons] at strengths
    obtain ⟨idle, action, decibel, shock, vibe, _⟩ := ordered
    obtain ⟨idleLeast, actionLeast, _⟩ := periods
    obtain ⟨shockMin, shockMax, vibeMin, vibeMax, _⟩ := strengths
    exact ⟨⟨idleLeast, idle⟩, ⟨actionLeast, action⟩, decibel, ⟨shockMin.1, shock, shockMax.2⟩,
      ⟨vibeMin.1, vibe, vibeMax.2⟩, sound.microphone, canonical.steps_iff.mp sound.steps⟩
  · intro invariants
    obtain ⟨⟨idleLeast, idle⟩, ⟨actionLeast, action⟩, decibel, ⟨shockLeast, shock, shockMost⟩,
      ⟨vibeLeast, vibe, vibeMost⟩, microphone, steps⟩ := invariants
    refine ⟨canonical.ordered_iff.mpr ?_, canonical.periods_iff.mpr ?_,
      canonical.strengths_iff.mpr ?_, microphone, Value.IsChoice.alert (canonical.holds .alert),
      canonical.steps_iff.mpr steps⟩
    · simp only [orderedPairs, List.forall_mem_cons]
      exact ⟨idle, action, decibel, shock, vibe, List.forall_mem_nil _⟩
    · simp only [periodFields, List.forall_mem_cons]
      exact ⟨idleLeast, actionLeast, List.forall_mem_nil _⟩
    · simp only [strengthFields, List.forall_mem_cons]
      exact ⟨⟨shockLeast, shock.trans shockMost⟩, ⟨shockLeast.trans shock, shockMost⟩,
        ⟨vibeLeast, vibe.trans vibeMost⟩, ⟨vibeLeast.trans vibe, vibeMost⟩, List.forall_mem_nil _⟩

/-- Validation decides the invariants: a configuration that was built, like each of its steps, is
accepted if and only if they hold, and is answered with a violation otherwise. -/
theorem Built.validate_decides (built : s.Built) : (s.validate = .ok () ↔ s.Invariants) ∧
    (¬s.Invariants → ∃ violation, s.validate = .error (.invalid violation)) := by
  have canonical := built_iff.mp built
  have decides : s.validate = .ok () ↔ s.Invariants := valid_iff.trans canonical.sound_iff
  refine ⟨decides, ?_⟩
  intro broken
  cases result : s.validate with
  | ok => exact absurd (decides.mp result) broken
  | error fault =>
    obtain ⟨violation, rfl⟩ :=
      (canonical.failsOnly_validate allowsViolations_isViolation).allows fault result
    exact ⟨violation, rfl⟩

theorem canonical_twelveAndHalf : TrainingCollar.Canonical (25 * 2 ^ 48) 1025 := by decide

/-- The configuration for a quiet room, with a least shock of twelve and a half. -/
def shocking (most : Int) : Settings :=
  (quiet.set .shockMin (.float (.finite false (25 * 2 ^ 48) 1025 canonical_twelveAndHalf))).set
    .shockMax (.int most)

theorem shocking_built {most : Int} (near : (Binary64.ofInt? most).isSome = true) :
    (shocking most).Built := by
  have least {x : Binary64} (isFinite : x.isFinite = true) : SettingField.shockMin.Holds (.float x) :=
    ⟨.float x, isFinite, rfl⟩
  have greatest : SettingField.shockMax.Holds (.int most) := Value.isNumber_int near
  exact built_iff.mpr ((quiet_canonical.set (least rfl)).set greatest)

/-- A least shock of twelve and a half is fine if the greatest is thirteen, and not if it is twelve. -/
theorem validate_decides_shocking : (shocking 13).Invariants ∧
    ∃ violation, (shocking 12).validate = .error (.invalid violation) := by
  have valid : (shocking 13).Valid := by decide +kernel
  constructor
  · exact (shocking_built (by decide +kernel)).validate_decides.1.mp valid
  · apply (shocking_built (by decide +kernel)).validate_decides.2
    intro invariants
    have ordered := invariants.shock.2.1
    simp only [shocking, SettingsOf.set, Value.exact, Binary64.exact] at ordered
    norm_num at ordered

end Settings

end TrainingCollar
