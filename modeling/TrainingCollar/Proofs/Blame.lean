import TrainingCollar.Proofs.Locating
import TrainingCollar.Proofs.Store.Attempt

/-! # Who is to blame

The name in a violation of validation is that of a site: a field of the configuration, or a field of one
of its steps. The site is to blame if something else there, with everything else unchanged, makes the
check pass that has failed. `Settings.Built.blamed_site_mends`: so it is with every check but one. The
check of the two delays of a step always blames the first, and nothing put there helps if it is the
second that is negative.
-/

namespace TrainingCollar

/-! ## Sites -/

/-- What a field of a step holds, in the form that coercion gives it. -/
def StepField.Holds (field : StepField) (v : Value) : Prop :=
  match field with
  | .kind => v.IsChoice .stimulus
  | .startDelay | .endDelay => v.IsNumber
  | .timeMode | .strengthMode => v.IsChoice .resolution
  | .time | .strength => v.IsRange

theorem Step.Canonical.set {s : Step} (canonical : s.Canonical) {field : StepField} {v : Value}
    (holds : field.Holds v) : Step.Canonical (s.set field v) := by
  cases field with
  | kind => exact { canonical with kind := holds }
  | startDelay => exact { canonical with startDelay := holds }
  | endDelay => exact { canonical with endDelay := holds }
  | timeMode => exact { canonical with timeMode := holds }
  | time => exact { canonical with time := holds }
  | strengthMode => exact { canonical with strengthMode := holds }
  | strength => exact { canonical with strength := holds }

theorem SettingField.holds_of_isNumber {field : SettingField} (numeric : field.isNumeric = true)
    {v : Value} (number : v.IsNumber) : field.Holds v := by
  cases field with
  | alert | steps => cases numeric
  | _ => exact number

/-- A place in a configuration that holds one value. -/
inductive Site where
  | field (field : SettingField)
  | step (which : Sequence) (index : Nat) (field : StepField)
deriving DecidableEq

namespace Site

/-- The name of a site in messages. -/
def name : Site → String
  | field f => f.name
  | step which index f => Violation.label which.name index ++ "." ++ f.name

/-- What a site holds, in the form that coercion gives it. -/
def Holds : Site → Value → Prop
  | field f => f.Holds
  | step _ _ f => f.Holds

theorem namesStep_name (which : Sequence) (index : Nat) (f : StepField) :
    Violation.NamesStep (step which index f).name which index := .inr ⟨f, rfl⟩

/-- No two sites share a name. -/
theorem name_injective : Function.Injective name := by
  intro a b same
  cases a with
  | field f =>
    cases b with
    | field g => exact congrArg field (SettingField.name_injective same)
    | step which index g => exact absurd same.symm ((namesStep_name which index g).ne_field f)
  | step which index f =>
    cases b with
    | field g => exact absurd same ((namesStep_name which index f).ne_field g)
    | step sequence position g =>
      obtain ⟨rfl, rfl⟩ := (namesStep_name which index f).eq (same ▸ namesStep_name sequence position g)
      have names : f.name = g.name := by
        simpa only [name, String.append_right_inj] using same
      rw [StepField.name_injective names]

end Site

namespace Settings

variable {s : Settings}

/-- The configuration with something else at one site. -/
def put (s : Settings) (site : Site) (x : Value) : Settings :=
  match site with
  | .field f => s.set f x
  | .step which index f =>
    s.set (.steps which) (stepsValue ((s.stepsIn which).modify index (StepOf.set · f x)))

theorem stepsIn_put_step (which : Sequence) (index : Nat) (f : StepField) (x : Value) :
    (s.put (.step which index f) x).stepsIn which =
      (s.stepsIn which).modify index (StepOf.set · f x) := by
  apply stepsIn_of_holds
  rw [put, sequence_set_steps, if_pos rfl]

theorem Canonical.stepsIn (canonical : s.Canonical) (which : Sequence) :
    ∀ step ∈ s.stepsIn which, step.Canonical := by
  obtain ⟨steps, isSteps, all⟩ := canonical.steps which
  rwa [stepsIn_of_holds isSteps]

/-- What suits a site can be put there. -/
theorem Canonical.put (canonical : s.Canonical) {site : Site} {x : Value} (holds : site.Holds x) :
    (s.put site x).Canonical := by
  cases site with
  | field f => exact canonical.set holds
  | step which index f =>
    refine canonical.set ⟨_, rfl, ?_⟩
    intro step member
    obtain ⟨position, isStep⟩ := List.mem_iff_getElem?.mp member
    rw [List.getElem?_modify] at isStep
    obtain ⟨old, isOld, rfl⟩ := Option.map_eq_some_iff.mp isStep
    have oldCanonical := canonical.stepsIn which old (List.mem_of_getElem? isOld)
    split
    · exact oldCanonical.set holds
    · exact oldCanonical

end Settings

/-! ## What a check blames -/

namespace Check

/-- The site that a check blames. -/
def site : Check → Site
  | .pair fields => .field fields.1
  | .period field | .strength field => .field field
  | .microphone => .field .microphone
  | .alert => .field .alert
  | .step which index check => .step which index check.blamed

theorem blames (s : Settings) (check : Check) :
    FailsOnly (Fault.Blames (· = check.site.name)) (check.run s) := by
  cases check with
  | pair fields => exact s.blames_validatePair fields
  | period field => exact s.blames_validatePeriod field
  | strength field => exact s.blames_validateStrength field
  | microphone => exact s.blames_validateMicrophone
  | alert => exact s.blames_validateAlert
  | step which index check =>
    rw [run]
    split
    · exact check.blames _ _ _
    · exact .ok _

end Check

/-! ## What helps -/

theorem Value.isRange_pair {v w : Value} (left : v.IsNumber) (right : w.IsNumber) :
    Value.IsRange (.tuple [v, w]) := by
  obtain ⟨a, admittedA, rfl⟩ := left
  obtain ⟨b, admittedB, rfl⟩ := right
  refine ⟨[a, b], .inr rfl, ?_, rfl⟩
  exact List.forall_mem_cons.mpr ⟨admittedA, List.forall_mem_singleton.mpr admittedB⟩

/-- Nothing is wrong with a range of two zeros. -/
theorem RangeCheck.run_zeros {mode : Value} (isMode : mode.IsChoice .resolution) (name : String)
    (check : RangeCheck) : check.run name mode (.tuple [.int 0, .int 0]) = .ok () := by
  have isRange := Value.isRange_pair isNumber_zero isNumber_zero
  have invariant : RangeInvariant mode (Value.exacts (.tuple [.int 0, .int 0])) :=
    ⟨.inr ⟨_, _, rfl, le_refl _⟩, by simp [Value.exacts]⟩
  have accepted : validateRange name mode _ = .ok () :=
    validateRange_eq_ok_iff.mpr ((rangeAccepted_iff isMode isRange).mpr invariant)
  rw [validateRange_eq] at accepted
  exact checkAll_eq_ok_iff.mp accepted check check.mem_all

/-- The bounds of each stimulus are numbers in order. -/
def OrderedBounds (bounds : Stimulus → Option (Value × Value)) : Prop :=
  ∀ kind low high, bounds kind = some (low, high) →
    low.IsNumber ∧ high.IsNumber ∧ low.exact ≤ high.exact

namespace StepCheck

variable {s : Step} {bounds : Stimulus → Option (Value × Value)}

theorem run_bounds_of_inside {kind : Stimulus} (isKind : s.kind = .choice (.stimulus kind))
    (inside : ∀ low high, bounds kind = some (low, high) →
      ∃ items, s.strength.items? = some items ∧ withinBounds low high items = .ok true)
    (label : String) : StepCheck.bounds.run s bounds label = .ok () := by
  cases isBounds : bounds kind with
  | none => simp only [run, isKind, isBounds]
  | some pair =>
    obtain ⟨low, high⟩ := pair
    obtain ⟨items, isItems, within⟩ := inside low high isBounds
    simp only [run, isKind, isBounds, itemsOf_eq_ok_iff.mpr isItems]
    exact demand_eq_ok_iff.mpr ⟨within, rfl⟩

theorem run_delays_eq_ok_iff {label : String} : StepCheck.delays.run s bounds label = .ok () ↔
    (Value.int 0).le? s.startDelay = some true ∧ (Value.int 0).le? s.endDelay = some true := by
  simp only [run, forbid_eq_ok_iff, notNegative_eq_ok_iff, pure_eq_ok_iff, and_true]

/-- Nothing in place of the first delay helps with a second delay that is negative. -/
theorem run_delays_ne_ok (canonical : s.Canonical) (negative : s.endDelay.exact < 0) (x : Value)
    (label : String) : StepCheck.delays.run (s.set .startDelay x) bounds label ≠ .ok () := by
  intro passes
  have second := (run_delays_eq_ok_iff.mp passes).2
  exact absurd (canonical.endDelay.zero_le?_iff.mp second) (not_le.mpr negative)

/-- The lowest strength that the bounds allow, at both ends of the range, is inside of them. -/
theorem exists_mend_bounds (canonical : s.Canonical) (ordered : OrderedBounds bounds) (label : String) :
    ∃ x, x.IsRange ∧ StepCheck.bounds.run (s.set .strength x) bounds label = .ok () := by
  obtain ⟨kind, isKind⟩ := canonical.kind.stimulus
  cases isBounds : bounds kind with
  | none =>
    refine ⟨s.strength, canonical.strength, run_bounds_of_inside isKind ?_ label⟩
    rw [isBounds]
    intro _ _ absent
    cases absent
  | some pair =>
    obtain ⟨low, high⟩ := pair
    obtain ⟨lowNumber, highNumber, lowHigh⟩ := ordered kind low high isBounds
    have isRange := Value.isRange_pair lowNumber lowNumber
    have between : ∀ value ∈ (Value.tuple [low, low]).exacts,
        low.exact ≤ value ∧ value ≤ high.exact := by simp [Value.exacts, lowHigh]
    let mended : Step := s.set .strength (.tuple [low, low])
    refine ⟨_, isRange, run_bounds_of_inside (s := mended) isKind ?_ label⟩
    rw [isBounds]
    rintro _ _ ⟨⟩
    exact (withinBounds_iff lowNumber highNumber isRange).mpr between

/-- Something in the field that it blames helps with each other check of a step. -/
theorem exists_mend (canonical : s.Canonical) (ordered : OrderedBounds bounds) (label : String)
    (check : StepCheck) (hits : check = .delays → 0 ≤ s.endDelay.exact) :
    ∃ x, check.blamed.Holds x ∧ check.run (s.set check.blamed x) bounds label = .ok () := by
  have zeros := Value.isRange_pair isNumber_zero isNumber_zero
  cases check with
  | kind => exact ⟨.choice (.stimulus .beep), ⟨_, rfl, rfl⟩, rfl⟩
  | delays =>
    have first := isNumber_zero.zero_le?_iff.mpr (le_refl _)
    have second := canonical.endDelay.zero_le?_iff.mpr (hits rfl)
    exact ⟨.int 0, isNumber_zero, run_delays_eq_ok_iff.mpr ⟨first, second⟩⟩
  | delayOrder =>
    have ordered := (canonical.endDelay.le?_iff canonical.endDelay).mpr (le_refl _)
    refine ⟨s.endDelay, canonical.endDelay, ?_⟩
    simp only [run, forbid_eq_ok_iff, atMost_eq_ok_iff, pure_eq_ok_iff, and_true]
    exact ordered
  | time check =>
    cases check with
    | mode => exact ⟨.choice (.resolution .fixed), ⟨_, rfl, rfl⟩, rfl⟩
    | _ =>
      refine ⟨_, zeros, ?_⟩
      rw [run]
      exact inStep_eq_ok_iff.mpr (RangeCheck.run_zeros canonical.timeMode _ _)
  | strength check =>
    cases check with
    | mode => exact ⟨.choice (.resolution .fixed), ⟨_, rfl, rfl⟩, rfl⟩
    | _ =>
      refine ⟨_, zeros, ?_⟩
      rw [run]
      exact inStep_eq_ok_iff.mpr (RangeCheck.run_zeros canonical.strengthMode _ _)
  | bounds => exact exists_mend_bounds canonical ordered label

end StepCheck

/-- What keeps the check from passing is not at the site it blames: it is the second delay of a step, which
is negative. -/
def Check.Misses (s : Settings) : Check → Prop
  | .step which index .delays =>
    ∃ step, (s.stepsIn which)[index]? = some step ∧ step.endDelay.exact < 0
  | _ => False

namespace Settings

variable {s : Settings} {check : Check}

theorem orderedPairs_ne : ∀ pair ∈ orderedPairs, pair.2 ≠ pair.1 := by decide

/-- When validation comes to a step, the pairs of fields are in order. -/
theorem pairs_of_failing_step {which : Sequence} {index : Nat} {part : StepCheck}
    (failing : s.failing? = some (.step which index part)) :
    ∀ pair ∈ orderedPairs, s.validatePair pair = .ok () := by
  intro pair member
  have among : Check.pair pair ∈ orderedPairs.map .pair := List.mem_map_of_mem member
  rw [failing?, checks, List.append_assoc, List.append_assoc, List.find?_append] at failing
  cases first : (orderedPairs.map Check.pair).find? fun check => !(check.run s).isOk with
  | some check =>
    obtain ⟨other, _, rfl⟩ := List.mem_map.mp (List.mem_of_find?_eq_some first)
    rw [first] at failing
    cases failing
  | none =>
    have passes : (Check.run s (.pair pair)).isOk = true := by
      simpa using List.find?_eq_none.mp first _ among
    obtain ⟨_, isOk⟩ := isOk_iff.mp passes
    exact isOk

theorem Canonical.orderedBounds (canonical : s.Canonical)
    (pairs : ∀ pair ∈ orderedPairs, s.validatePair pair = .ok ()) : OrderedBounds s.strengthBounds := by
  intro kind low high isBounds
  obtain ⟨lowNumber, highNumber⟩ := canonical.strengthBounds isBounds
  refine ⟨lowNumber, highNumber, (lowNumber.le?_iff highNumber).mp ?_⟩
  cases kind with
  | shock =>
    cases isBounds
    exact validatePair_eq_ok_iff.mp (pairs (.shockMin, .shockMax) (by decide))
  | vibration =>
    cases isBounds
    exact validatePair_eq_ok_iff.mp (pairs (.vibeMin, .vibeMax) (by decide))
  | beep => cases isBounds

/-- A check of a step sees what has been put into a field of the step. -/
theorem run_put_step {which : Sequence} {index : Nat} {step : Step}
    (isStep : (s.stepsIn which)[index]? = some step) (f : StepField) (x : Value) (part : StepCheck) :
    Check.run (s.put (.step which index f) x) (.step which index part) =
      part.run (step.set f x) s.strengthBounds (Violation.label which.name index) := by
  have found : ((s.put (.step which index f) x).stepsIn which)[index]? = some (step.set f x) := by
    rw [stepsIn_put_step, List.getElem?_modify_eq, isStep]
    rfl
  simp only [Check.run, found]
  rw [put, strengthBounds_set_steps]

/-- Something at the site that it blames helps with a check that fails, unless it misses. -/
theorem Canonical.exists_mend (canonical : s.Canonical) (failing : s.failing? = some check)
    (hits : ¬check.Misses s) : ∃ x, check.site.Holds x ∧ check.run (s.put check.site x) = .ok () := by
  have member : check ∈ s.checks := List.mem_of_find?_eq_some failing
  cases check with
  | pair fields =>
    have among := mem_checks.mp member
    have high := (canonical.ordered_isNumber among).2
    refine ⟨s.get fields.2, SettingField.holds_of_isNumber (orderedPairs_isNumeric _ among).1 high, ?_⟩
    apply validatePair_eq_ok_iff.mpr
    rw [Check.site, Settings.put, SettingsOf.get_set_self,
      SettingsOf.get_set_of_ne _ _ (orderedPairs_ne _ among)]
    exact (high.le?_iff high).mpr (le_refl _)
  | period field =>
    have numeric := periodFields_isNumeric _ (mem_checks.mp member)
    refine ⟨.int 0, SettingField.holds_of_isNumber numeric isNumber_zero, ?_⟩
    apply validatePeriod_eq_ok_iff.mpr
    rw [Check.site, Settings.put, SettingsOf.get_set_self]
    exact isNumber_zero.zero_le?_iff.mpr (le_refl _)
  | strength field =>
    have numeric := strengthFields_isNumeric _ (mem_checks.mp member)
    refine ⟨.int 0, SettingField.holds_of_isNumber numeric isNumber_zero, ?_⟩
    apply validateStrength_eq_ok_iff.mpr
    rw [Check.site, Settings.put, SettingsOf.get_set_self]
    decide +kernel
  | microphone => exact ⟨.int 26, Value.isNumber_int (by decide +kernel), rfl⟩
  | alert => exact ⟨.choice (.alert .none), ⟨_, rfl, rfl⟩, rfl⟩
  | step which index part =>
    obtain ⟨step, isStep⟩ : ∃ step, (s.stepsIn which)[index]? = some step :=
      ⟨_, List.getElem?_eq_getElem (mem_checks.mp member)⟩
    have stepCanonical := canonical.stepsIn which step (List.mem_of_getElem? isStep)
    have ordered := canonical.orderedBounds (pairs_of_failing_step failing)
    have endDelay : part = .delays → 0 ≤ step.endDelay.exact := by
      rintro rfl
      exact not_lt.mp fun negative => hits ⟨step, isStep, negative⟩
    obtain ⟨x, holds, passes⟩ :=
      part.exists_mend stepCanonical ordered (Violation.label which.name index) endDelay
    exact ⟨x, holds, (run_put_step isStep _ x part).trans passes⟩

/-- Nothing at the site that it blames helps with a check that misses. -/
theorem Canonical.run_put_ne_ok (canonical : s.Canonical) (misses : check.Misses s) (x : Value) :
    check.run (s.put check.site x) ≠ .ok () := by
  unfold Check.Misses at misses
  split at misses
  · next which index =>
    obtain ⟨step, isStep, negative⟩ := misses
    have stepCanonical := canonical.stepsIn which step (List.mem_of_getElem? isStep)
    rw [Check.site, run_put_step isStep]
    exact StepCheck.run_delays_ne_ok stepCanonical negative x _
  · exact misses.elim

/-- Validation of a configuration that was built, like each of its steps, fails in one of its checks with
a violation that names one site. Something else at that site alone, of which a configuration can be built
again, makes the check pass; but if the check is that of the two delays of a step, of which the second
is negative, nothing at the site does. -/
theorem Built.blamed_site_mends (built : s.Built) {fault : Fault} (rejected : s.validate = .error fault) :
    ∃ violation check site, fault = .invalid violation ∧ s.failing? = some check ∧
      check.run s = .error fault ∧ (∀ other : Site, violation.field = .text other.name ↔ other = site) ∧
        (¬check.Misses s → ∃ x, (s.put site x).Built ∧ check.run (s.put site x) = .ok ()) ∧
        (check.Misses s → ∀ x, check.run (s.put site x) ≠ .ok ()) := by
  have canonical := built_iff.mp built
  obtain ⟨violation, rfl⟩ :=
    (canonical.failsOnly_validate allowsViolations_isViolation).allows fault rejected
  rw [canonical.validate_eq_failing] at rejected
  cases failing : s.failing? with
  | none =>
    rw [failing] at rejected
    cases rejected
  | some check =>
    rw [failing, Option.elim_some] at rejected
    obtain ⟨isField, isName⟩ := (check.blames s).allows _ rejected violation rfl
    refine ⟨violation, check, check.site, rfl, rfl, rejected, ?_, ?_, canonical.run_put_ne_ok⟩
    · intro other
      rw [isField, isName, Value.text.injEq]
      exact ⟨fun same => (Site.name_injective same).symm, fun same => congrArg _ same.symm⟩
    · intro hits
      obtain ⟨x, holds, passes⟩ := canonical.exists_mend failing hits
      exact ⟨x, built_iff.mpr (canonical.put holds), passes⟩

/-- The second affirmation is belated, and can be put right where the violation says. -/
theorem blamed_site_mends_fumbled : ∃ x, (fumbled.put (.step .affirmations 1 .startDelay) x).Built ∧
    Check.run (fumbled.put (.step .affirmations 1 .startDelay) x) (.step .affirmations 1 .delayOrder) =
      .ok () := by
  obtain ⟨violation, isInvalid, isField⟩ := exists_of_blamed?
    (by decide +kernel : blamed? fumbled.validate = some "affirmation_steps[1].start_delay")
  have failing : fumbled.failing? = some (.step .affirmations 1 .delayOrder) := by decide +kernel
  obtain ⟨_, check, site, ⟨⟩, isFailing, _, names, mends, _⟩ :=
    (built_iff.mpr fumbled_canonical).blamed_site_mends isInvalid
  obtain rfl := Option.some.inj (failing.symm.trans isFailing)
  obtain rfl : Site.step .affirmations 1 .startDelay = site :=
    (names _).mp (isField.trans (congrArg Value.text (by decide)))
  exact mends id

/-- A vibration that ends before the signal. -/
def hasty : Step := { buzz with endDelay := .int (-5) }

/-- The defaults with a hasty correction. -/
def rushed : Settings := defaults.set (.steps .corrections) (stepsValue [hasty])

theorem rushed_canonical : rushed.Canonical := by
  have early : hasty.Canonical :=
    { buzz_canonical with endDelay := Value.isNumber_int (by decide +kernel) }
  exact defaults_canonical.set ⟨[hasty], rfl, List.forall_mem_singleton.mpr early⟩

/-- The violation names the first delay of the correction, where nothing helps; what helps is another
second delay. -/
theorem blamed_site_unmended_rushed : rushed.Built ∧
    (∃ violation, rushed.validate = .error (.invalid violation) ∧
      violation.field = .text (Site.step .corrections 0 .startDelay).name) ∧
    rushed.failing? = some (.step .corrections 0 .delays) ∧
    (∀ x, Check.run (rushed.put (.step .corrections 0 .startDelay) x) (.step .corrections 0 .delays) ≠
      .ok ()) ∧
    Check.run (rushed.put (.step .corrections 0 .endDelay) (.int 0)) (.step .corrections 0 .delays) =
      .ok () := by
  have stands : (rushed.stepsIn .corrections)[0]? = some hasty := rfl
  have misses : (Check.step .corrections 0 .delays).Misses rushed := by
    refine ⟨hasty, stands, ?_⟩
    rw [hasty, Value.exact_int]
    norm_num
  have blames : blamed? rushed.validate = some (Site.step .corrections 0 .startDelay).name := by
    decide +kernel
  refine ⟨built_iff.mpr rushed_canonical, exists_of_blamed? blames, by decide +kernel,
    rushed_canonical.run_put_ne_ok misses, ?_⟩
  rw [run_put_step stands]
  exact StepCheck.run_delays_eq_ok_iff.mpr ⟨by decide +kernel, by decide +kernel⟩

end Settings

end TrainingCollar
