import Mathlib.Tactic.ByContra
import TrainingCollar.Proofs.Order

/-! # What validation accepts

`Settings.valid_iff` says which configurations validation accepts, check by check and without the
labels that refusals carry. All that follows about valid configurations starts from it: what a step
may be does not depend on where it stands, and what the other fields may be does not depend on the
steps.
-/

namespace TrainingCollar

section Checks

variable {α β : Type} {violation : Violation}

theorem bind_eq_ok_iff {x : Except Fault α} {f : α → Except Fault β} {b : β} :
    (x >>= f) = .ok b ↔ ∃ a, x = .ok a ∧ f a = .ok b := by
  cases x <;> simp [Bind.bind, Except.bind]

/-- A check with no answer but that it passed. -/
theorem check_eq_ok_iff {x : Except Fault Unit} {f : Unit → Except Fault β} {b : β} :
    (x >>= f) = .ok b ↔ x = .ok () ∧ f () = .ok b := by
  rw [bind_eq_ok_iff]
  exact ⟨fun ⟨(), passed, rest⟩ => ⟨passed, rest⟩, fun ⟨passed, rest⟩ => ⟨(), passed, rest⟩⟩

theorem pure_eq_ok_iff {a b : α} : (pure a : Except Fault α) = .ok b ↔ a = b := by
  simp [pure, Except.pure]

theorem map_eq_ok_iff {x : Except Fault α} {f : α → β} {b : β} :
    x.map f = .ok b ↔ ∃ a, x = .ok a ∧ f a = b := by
  cases x <;> simp [Except.map]

theorem isOk_iff {x : Except Fault α} : x.isOk = true ↔ ∃ a, x = .ok a := by
  cases x <;> simp [Except.isOk, Except.toBool]

theorem refuse_ne_ok {a : α} : (refuse violation : Except Fault α) ≠ .ok a := nofun

theorem refuse_if_eq_ok_iff {p : Prop} [Decidable p] {y : Except Fault α} {a : α} :
    (if p then refuse violation else y) = .ok a ↔ ¬p ∧ y = .ok a := by
  by_cases h : p <;> simp [h, refuse_ne_ok]

/-- A check that has to hold. -/
theorem demand_eq_ok_iff {x : Except Fault Bool} {y : Except Fault α} {a : α} :
    (x >>= fun holds => if holds = true then y else refuse violation) = .ok a ↔
      x = .ok true ∧ y = .ok a := by
  rw [bind_eq_ok_iff]
  constructor
  · rintro ⟨holds, checked, rest⟩
    cases holds with
    | false => exact absurd rest refuse_ne_ok
    | true => exact ⟨checked, rest⟩
  · rintro ⟨checked, rest⟩
    exact ⟨true, checked, rest⟩

theorem forbid_eq_ok_iff {x : Except Fault Bool} {y : Except Fault α} {a : α} :
    (x >>= fun holds => if (!holds) = true then refuse violation else y) = .ok a ↔
      x = .ok true ∧ y = .ok a := by
  rw [← @demand_eq_ok_iff α violation]
  refine iff_of_eq (congrArg (· = _) (congrArg (x >>= ·) (funext fun holds => ?_)))
  cases holds <;> rfl

/-- Two answers of which the second is only asked for if the first is yes. -/
theorem both_eq_true_iff {x y : Except Fault Bool} :
    (x >>= fun holds => if holds = true then y else pure false) = .ok true ↔
      x = .ok true ∧ y = .ok true := by
  rw [bind_eq_ok_iff]
  constructor
  · rintro ⟨holds, first, rest⟩
    cases holds with
    | false => cases rest
    | true => exact ⟨first, rest⟩
  · rintro ⟨first, rest⟩
    exact ⟨true, first, rest⟩

theorem checkAll_eq_ok_iff {check : α → Except Fault Unit} {list : List α} :
    Settings.checkAll check list = .ok () ↔ ∀ x ∈ list, check x = .ok () := by
  induction list with
  | nil => simp [Settings.checkAll]
  | cons x rest ih => simp only [Settings.checkAll, check_eq_ok_iff, ih, List.forall_mem_cons]

end Checks

theorem notNegative_eq_ok_iff {value : Value} {answer : Bool} :
    notNegative value = .ok answer ↔ (Value.int 0).le? value = some answer :=
  atMost_eq_ok_iff

theorem itemsOf_eq_ok_iff {value : Value} {items : List Value} :
    itemsOf value = .ok items ↔ value.items? = some items := by
  unfold itemsOf
  cases value.items? <;> simp

theorem sizeOfValue_eq_ok_iff {value : Value} {size : Nat} :
    sizeOfValue value = .ok size ↔ ∃ items, value.items? = some items ∧ items.length = size := by
  unfold sizeOfValue
  cases value.items? <;> simp

theorem noneNegative_eq_true_iff {items : List Value} :
    noneNegative items = .ok true ↔ ∀ v ∈ items, (Value.int 0).le? v = some true := by
  induction items with
  | nil => simp [noneNegative]
  | cons v rest ih =>
    simp only [noneNegative, both_eq_true_iff, notNegative_eq_ok_iff, ih, List.forall_mem_cons]

/-- One value that is fixed, or two in order, and none of them negative. -/
def RangeAccepted (mode values : Value) : Prop :=
  ∃ m items, mode = .choice (.resolution m) ∧ values.items? = some items ∧
    (items.length = 1 ∧ m = .fixed ∨ items.length = 2 ∧ ∃ low high, itemAt values 0 = .ok low ∧
      itemAt values 1 = .ok high ∧ low.le? high = some true) ∧
    ∀ v ∈ items, (Value.int 0).le? v = some true

private theorem rangeOrdered_eq_ok_iff {name : String} {values : Value} {size : Nat} :
    (if size = 2 then do
      let low ← itemAt values 0
      let high ← itemAt values 1
      if ← atMost low high then return ()
      else refuse (.reversedRange name low high)
    else return ()) = Except.ok () ↔ size = 2 → ∃ low high, itemAt values 0 = .ok low ∧
      itemAt values 1 = .ok high ∧ low.le? high = some true := by
  by_cases two : size = 2
  · simp only [two, if_true, bind_eq_ok_iff, ↓demand_eq_ok_iff, atMost_eq_ok_iff, pure_eq_ok_iff,
      and_true, true_imp_iff, exists_and_left]
  · simp only [two, if_false, pure_eq_ok_iff, false_imp_iff]

theorem validateRange_eq_ok_iff {name : String} {mode values : Value} :
    validateRange name mode values = .ok () ↔ RangeAccepted mode values := by
  unfold validateRange RangeAccepted
  split
  · next m =>
    simp only [bind_eq_ok_iff, sizeOfValue_eq_ok_iff, itemsOf_eq_ok_iff, refuse_if_eq_ok_iff,
      ↓demand_eq_ok_iff, noneNegative_eq_true_iff, rangeOrdered_eq_ok_iff]
    constructor
    · rintro ⟨size, ⟨items, isItems, rfl⟩, few, lone, others, isOthers, positive, ordered⟩
      obtain rfl : items = others := Option.some.inj (isItems.symm.trans isOthers)
      refine ⟨m, items, rfl, isItems, ?_, positive⟩
      by_cases one : items.length = 1
      · exact .inl ⟨one, by_contra fun random => lone ⟨one, random⟩⟩
      · have two : items.length = 2 := by_contra fun other => few ⟨one, other⟩
        exact .inr ⟨two, ordered two⟩
    · rintro ⟨_, items, same, isItems, shape, positive⟩
      cases same
      refine ⟨_, ⟨items, isItems, rfl⟩, ?_, ?_, items, isItems, positive, ?_⟩
      · rintro ⟨notOne, notTwo⟩
        exact shape.elim (fun one => notOne one.1) (fun two => notTwo two.1)
      · rintro ⟨one, random⟩
        exact shape.elim (fun fixed => random fixed.2) (fun two => by omega)
      · intro two
        exact shape.elim (fun one => by omega) (fun ordered => ordered.2)
  · next other =>
    simp only [refuse_ne_ok, false_iff]
    rintro ⟨m, items, rfl, _⟩
    exact other m rfl

theorem inStep_eq_ok_iff {label : String} {result : Except Fault Unit} :
    inStep label result = .ok () ↔ result = .ok () := by
  unfold inStep
  split
  · exact iff_of_false refuse_ne_ok nofun
  · rfl

/-- What a step may hold, given the bounds for the strength of each stimulus. -/
structure Step.Accepted (bounds : Stimulus → Option (Value × Value)) (s : Step) : Prop where
  startDelay : (Value.int 0).le? s.startDelay = some true
  endDelay : (Value.int 0).le? s.endDelay = some true
  delays : s.startDelay.le? s.endDelay = some true
  time : RangeAccepted s.timeMode s.time
  strength : RangeAccepted s.strengthMode s.strength
  bounded : ∃ kind, s.kind = .choice (.stimulus kind) ∧ ∀ low high, bounds kind = some (low, high) →
    ∃ items, s.strength.items? = some items ∧ withinBounds low high items = .ok true

private theorem bounded_eq_ok_iff (s : Step) (label : String) (kind : Stimulus)
    (bound : Option (Value × Value)) :
    (match bound with
      | none => return ()
      | some (low, high) => do
        let values ← itemsOf s.strength
        if ← withinBounds low high values then return ()
        else refuse (.strengthOutside label values kind low high)) = Except.ok () ↔
      ∀ low high, bound = some (low, high) →
        ∃ items, s.strength.items? = some items ∧ withinBounds low high items = .ok true := by
  cases bound with
  | none => simp [pure, Except.pure]
  | some pair =>
    obtain ⟨low, high⟩ := pair
    simp only [bind_eq_ok_iff, ↓demand_eq_ok_iff, itemsOf_eq_ok_iff, pure_eq_ok_iff, and_true,
      Option.some.injEq, Prod.mk.injEq]
    constructor
    · rintro inside _ _ ⟨rfl, rfl⟩
      exact inside
    · intro inside
      exact inside low high ⟨rfl, rfl⟩

/-- The label of a step says where it stands and has no part in the decision. -/
theorem validateStep_eq_ok_iff {s : Step} {bounds : Stimulus → Option (Value × Value)}
    {label : String} :
    validateStep s (fun kind => .ok (bounds kind)) label = .ok () ↔ s.Accepted bounds := by
  unfold validateStep
  split
  · next kind isKind =>
    simp only [↓forbid_eq_ok_iff, ↓check_eq_ok_iff, inStep_eq_ok_iff, notNegative_eq_ok_iff,
      atMost_eq_ok_iff, validateRange_eq_ok_iff, bind_eq_ok_iff, Except.ok.injEq, exists_eq_left']
    have bounded := bounded_eq_ok_iff s label kind (bounds kind)
    constructor
    · rintro ⟨startDelay, endDelay, delays, ⟨time, strength⟩, inside⟩
      exact ⟨startDelay, endDelay, delays, time, strength, kind, isKind, bounded.mp inside⟩
    · rintro ⟨startDelay, endDelay, delays, time, strength, other, isOther, inside⟩
      obtain rfl : other = kind := by
        rw [isKind] at isOther
        cases isOther
        rfl
      exact ⟨startDelay, endDelay, delays, ⟨time, strength⟩, bounded.mpr inside⟩
  · next other =>
    refine iff_of_false refuse_ne_ok ?_
    rintro ⟨_, _, _, _, _, kind, isKind, _⟩
    exact other kind isKind

/-- Whether a field holds a number. -/
def SettingField.isNumeric : SettingField → Bool
  | .alert | .steps _ => false
  | _ => true

theorem SettingField.ne_steps_of_isNumeric {field : SettingField} (numeric : field.isNumeric = true)
    (which : Sequence) : field ≠ .steps which := by
  rintro rfl
  cases numeric

namespace Settings

theorem orderedPairs_isNumeric : ∀ pair ∈ orderedPairs,
    pair.1.isNumeric = true ∧ pair.2.isNumeric = true := by decide

theorem periodFields_isNumeric : ∀ field ∈ periodFields, field.isNumeric = true := by decide

theorem strengthFields_isNumeric : ∀ field ∈ strengthFields, field.isNumeric = true := by decide

variable {s : Settings}

/-- What a configuration in force may hold. -/
structure Sound (s : Settings) : Prop where
  ordered : ∀ pair ∈ orderedPairs, (s.get pair.1).le? (s.get pair.2) = some true
  periods : ∀ field ∈ periodFields, (Value.int 0).le? (s.get field) = some true
  strengths : ∀ field ∈ strengthFields, (Value.int deviceMin).le? (s.get field) = some true ∧
    (s.get field).le? (.int deviceMax) = some true
  microphone : ∃ n ∈ microphoneLevels, s.microphone = .int n
  alert : ∃ alert, s.alert = .choice (.alert alert)
  steps : ∀ which, ∃ steps : List Step, (s.sequence which).items? = some (steps.map .step) ∧
    ∀ step ∈ steps, step.Accepted s.strengthBounds

theorem validatePair_eq_ok_iff {pair : SettingField × SettingField} :
    s.validatePair pair = .ok () ↔ (s.get pair.1).le? (s.get pair.2) = some true := by
  simp only [validatePair, demand_eq_ok_iff, atMost_eq_ok_iff, pure_eq_ok_iff, and_true]

theorem validatePeriod_eq_ok_iff {field : SettingField} :
    s.validatePeriod field = .ok () ↔ (Value.int 0).le? (s.get field) = some true := by
  simp only [validatePeriod, demand_eq_ok_iff, notNegative_eq_ok_iff, pure_eq_ok_iff, and_true]

theorem validateStrength_eq_ok_iff {field : SettingField} :
    s.validateStrength field = .ok () ↔ (Value.int deviceMin).le? (s.get field) = some true ∧
      (s.get field).le? (.int deviceMax) = some true := by
  simp only [validateStrength, demand_eq_ok_iff, atMost_eq_ok_iff, pure_eq_ok_iff, and_true]

theorem validateMicrophone_eq_ok_iff :
    s.validateMicrophone = .ok () ↔ ∃ n ∈ microphoneLevels, s.microphone = .int n := by
  unfold validateMicrophone
  split
  · next n isInt => simp [isInt, refuse_ne_ok]
  · next other => simpa [refuse_ne_ok] using fun n _ => other n

theorem validateAlert_eq_ok_iff :
    s.validateAlert = .ok () ↔ ∃ alert, s.alert = .choice (.alert alert) := by
  unfold validateAlert
  split
  · next alert isAlert => simp [isAlert]
  · next other => simpa [refuse_ne_ok] using other

theorem validateSteps_eq_ok_iff {name : String} {index : Nat} {items : List Value} :
    s.validateSteps name index items = .ok () ↔ ∃ steps : List Step, items = steps.map .step ∧
      ∀ step ∈ steps, step.Accepted s.strengthBounds := by
  induction items generalizing index with
  | nil => simp [validateSteps]
  | cons item rest ih =>
    simp only [validateSteps, bind_eq_ok_iff, ↓check_eq_ok_iff, validateStep_eq_ok_iff, ih]
    constructor
    · rintro ⟨step, isStep, accepted, steps, rfl, others⟩
      refine ⟨step :: steps, ?_, List.forall_mem_cons.mpr ⟨accepted, others⟩⟩
      cases item <;> cases isStep
      rfl
    · rintro ⟨steps, same, accepted⟩
      cases steps with
      | nil => cases same
      | cons step steps =>
        cases same
        have split := List.forall_mem_cons.mp accepted
        exact ⟨step, rfl, split.1, steps, rfl, split.2⟩

theorem validateSequence_eq_ok_iff {which : Sequence} :
    s.validateSequence which = .ok () ↔ ∃ steps : List Step,
      (s.sequence which).items? = some (steps.map .step) ∧
        ∀ step ∈ steps, step.Accepted s.strengthBounds := by
  simp only [validateSequence, bind_eq_ok_iff, itemsOf_eq_ok_iff, validateSteps_eq_ok_iff]
  constructor
  · rintro ⟨_, isItems, steps, rfl, accepted⟩
    exact ⟨steps, isItems, accepted⟩
  · rintro ⟨steps, isItems, accepted⟩
    exact ⟨_, isItems, steps, rfl, accepted⟩

theorem valid_iff : s.Valid ↔ s.Sound := by
  simp only [Valid, validate, check_eq_ok_iff, checkAll_eq_ok_iff, validatePair_eq_ok_iff,
    validatePeriod_eq_ok_iff, validateStrength_eq_ok_iff, validateMicrophone_eq_ok_iff,
    validateAlert_eq_ok_iff, validateSequence_eq_ok_iff]
  constructor
  · rintro ⟨ordered, periods, strengths, microphone, alert, steps⟩
    exact ⟨ordered, periods, strengths, microphone, alert, fun which =>
      steps which (Sequence.mem_all which)⟩
  · rintro ⟨ordered, periods, strengths, microphone, alert, steps⟩
    exact ⟨ordered, periods, strengths, microphone, alert, fun which _ => steps which⟩

instance : Decidable s.Valid :=
  decidable_of_iff (s.validate.isOk = true) (by
    unfold Valid
    cases s.validate with
    | error => exact ⟨nofun, nofun⟩
    | ok => exact ⟨fun _ => rfl, fun _ => rfl⟩)

end Settings

end TrainingCollar
