import TrainingCollar.Proofs.Invariants
import TrainingCollar.Summary

/-! # Summaries are complete

A summary divides milliseconds, rounds integers of any size to doubles and takes percentages, and each of
these can fail. None does on a valid configuration with canonical contents: `Settings.Canonical.report_complete`.
An integer that a field takes is near a double, so it can be shown as one and stays so when it is divided;
strengths are at most a hundred, so their percentages cannot overflow.
-/

namespace TrainingCollar

variable {allowed : Fault → Prop} {v : Value}

/-! ## Numbers -/

theorem failsOnly_briefNumber (number : v.IsNumber) : FailsOnly allowed (briefNumber v) := by
  obtain ⟨n, admitted, rfl⟩ := number
  cases n with
  | int n =>
    obtain ⟨x, near⟩ := Option.isSome_iff_exists.mp admitted
    have shown : briefNumber (.int n) = .ok x.brief := by
      simp only [briefNumber, Value.number?, Number.toBinary64?, near]
    rw [Value.ofNumber, shown]
    exact .ok _
  | float x => exact .ok _

/-- A number that a field takes can be divided by two and by anything greater. -/
theorem exists_quotient (number : v.IsNumber) {divisor : Nat} (half : 2 ≤ divisor) :
    ∃ x, quotient v divisor = .ok (.float x) := by
  obtain ⟨n, admitted, rfl⟩ := number
  cases n with
  | int n =>
    have isFinite := Binary64.isFinite_ofQuotient_ofInt? (decide (n < 0)) admitted half
    refine ⟨Binary64.ofQuotient (decide (n < 0)) (Binary64.unitsPerOne * n.natAbs) divisor, ?_⟩
    simp only [quotient, Value.number?_ofNumber, Number.divide?, isFinite, if_true]
  | float x => exact ⟨x.divide divisor, rfl⟩

theorem failsOnly_formatMilliseconds (number : v.IsNumber) :
    FailsOnly allowed (formatMilliseconds v) := by
  obtain ⟨x, isQuotient⟩ := exists_quotient number (by decide : 2 ≤ 1000)
  unfold formatMilliseconds
  rw [isQuotient]
  exact .ok _

theorem failsOnly_showPlain (number : v.IsNumber) : FailsOnly allowed (showPlain v) := by
  unfold showPlain
  rw [if_pos number.hasText]
  obtain ⟨n, _, rfl⟩ := number
  cases n <;> exact .ok _

/-- A double of a moderate size can be shown as a percentage. -/
theorem failsOnly_formatPercentage {x : Binary64} {order : Nat} (atMost : x.AtMost order)
    (whole : 1074 ≤ order) (room : order + 7 ≤ 2097) :
    FailsOnly allowed (formatPercentage (.float x)) := by
  have scaled : (x.scale 100).AtMost (order + 7) := atMost.scale (by decide) room
  have rounded : ((x.scale 100).roundTo 6).AtMost (order + 7) := scaled.roundTo 6 (by omega) room
  obtain ⟨percent, isFloor⟩ := Binary64.floor?_of_isFinite rounded.isFinite
  cases x with
  | finite negative mantissa shift canonical =>
    have shown : formatPercentage (.float (.finite negative mantissa shift canonical)) =
        .ok (toString percent ++ "%") := by
      simp only [formatPercentage, Value.number?, isFloor]
    rw [shown]
    exact .ok _
  | nan | infinite => cases atMost

/-- A hundredth of a strength that a device accepts is of a moderate size. -/
theorem exists_hundredth (number : v.IsNumber) (least : 0 ≤ v.exact) (most : v.exact ≤ 100) :
    ∃ x, quotient v 100 = .ok (.float x) ∧ x.AtMost 1081 := by
  obtain ⟨n, admitted, rfl⟩ := number
  rw [Value.exact_ofNumber] at least most
  cases n with
  | int n =>
    have atMost : (Binary64.ofQuotient (decide (n < 0)) (Binary64.unitsPerOne * n.natAbs) 100).AtMost
        1081 := by
      apply Binary64.atMost_ofQuotient _ (by decide) _ (by decide)
      calc Binary64.unitsPerOne * n.natAbs
        _ ≤ Binary64.unitsPerOne * 2 ^ 7 := Nat.mul_le_mul_left _ (Number.natAbs_of_exact least most)
        _ = 2 ^ 1081 := by rw [Binary64.unitsPerOne_eq, ← pow_add]
        _ ≤ 2 ^ 1081 * 100 := Nat.le_mul_of_pos_right _ (by decide)
    refine ⟨_, ?_, atMost⟩
    simp only [quotient, Value.number?_ofNumber, Number.divide?, atMost.isFinite, if_true]
  | float x =>
    have small : |x.exact| ≤ 2 ^ 7 := by
      have notNegative : 0 ≤ x.exact := least
      have few : x.exact ≤ 100 := most
      rw [abs_of_nonneg notNegative]
      exact few.trans (by norm_num)
    have atMost : x.AtMost (1074 + 7) := Binary64.atMost_of_exact admitted small
    exact ⟨x.divide 100, rfl, atMost.divide (by decide) (by decide)⟩

theorem failsOnly_formatStrength (number : v.IsNumber) (least : 0 ≤ v.exact) (most : v.exact ≤ 100) :
    FailsOnly allowed (formatStrength v) := by
  obtain ⟨x, isQuotient, atMost⟩ := exists_hundredth number least most
  unfold formatStrength
  rw [isQuotient]
  exact failsOnly_formatPercentage atMost (by decide) (by decide)

/-! ## Steps -/

theorem failsOnly_formatRange (range : v.IsRange) : FailsOnly allowed (formatRange v) := by
  obtain ⟨items, _, few, rfl, numbers⟩ := range.items
  rcases few with one | two
  · obtain ⟨low, rfl⟩ := List.length_eq_one_iff.mp one
    have lowNumber : low.IsNumber := numbers low (List.mem_singleton_self low)
    refine .bind (.ok 1) ?_
    rintro _ ⟨⟩
    refine .bind (.ok low) ?_
    rintro _ ⟨⟩
    apply FailsOnly.bind (failsOnly_briefNumber lowNumber)
    intro _ _
    exact .pure _
  · obtain ⟨low, high, rfl⟩ := List.length_eq_two.mp two
    obtain ⟨lowNumber, highNumber⟩ : low.IsNumber ∧ high.IsNumber := by simpa using numbers
    refine .bind (.ok 2) ?_
    rintro _ ⟨⟩
    refine .bind (.ok low) ?_
    rintro _ ⟨⟩
    apply FailsOnly.bind (failsOnly_briefNumber lowNumber)
    intro _ _
    refine .bind (.ok high) ?_
    rintro _ ⟨⟩
    apply FailsOnly.bind (failsOnly_briefNumber highNumber)
    intro _ _
    exact .pure _

theorem failsOnly_nameOf {family : Family} (choice : v.IsChoice family) :
    FailsOnly allowed (nameOf v) := by
  obtain ⟨c, _, rfl⟩ := choice
  exact .ok _

theorem failsOnly_modeName {family : Family} (choice : v.IsChoice family) :
    FailsOnly allowed (modeName v) := by
  apply FailsOnly.bind (failsOnly_nameOf choice)
  intro _ _
  exact .pure _

theorem failsOnly_stimulusName {family : Family} (choice : v.IsChoice family) :
    FailsOnly allowed (stimulusName v) := by
  apply FailsOnly.bind (failsOnly_nameOf choice)
  intro _ _
  exact .pure _

theorem Step.Canonical.failsOnly_describeStep {s : Step} (canonical : s.Canonical) :
    FailsOnly allowed (describeStep s) := by
  apply FailsOnly.bind (failsOnly_stimulusName canonical.kind)
  intro _ _
  apply FailsOnly.bind (failsOnly_formatMilliseconds canonical.startDelay)
  intro _ _
  apply FailsOnly.bind (failsOnly_formatMilliseconds canonical.endDelay)
  intro _ _
  apply FailsOnly.bind (failsOnly_modeName canonical.timeMode)
  intro _ _
  apply FailsOnly.bind (failsOnly_formatRange canonical.time)
  intro _ _
  dsimp only
  split
  · exact .pure _
  · apply FailsOnly.bind (failsOnly_modeName canonical.strengthMode)
    intro _ _
    apply FailsOnly.bind (failsOnly_formatRange canonical.strength)
    intro _ _
    exact .pure _

/-! ## Reports -/

theorem failsOnly_rangeLine {title : String} {format : Value → Except Fault String} {low high : Value}
    (first : FailsOnly allowed (format low)) (second : FailsOnly allowed (format high)) :
    FailsOnly allowed (rangeLine title format low high) := by
  apply FailsOnly.bind first
  intro _ _
  apply FailsOnly.bind second
  intro _ _
  exact .pure _

/-- A line that cannot fail. -/
def Sure (line : Except Fault String) : Prop := FailsOnly (fun _ => False) line

namespace Report

variable {lines : List (Except Fault String)} {first second : Report}

theorem fault_ofLines (sure : ∀ line ∈ lines, Sure line) : (ofLines lines).fault = none := by
  induction lines with
  | nil => rfl
  | cons line rest ih =>
    obtain ⟨now, later⟩ := List.forall_mem_cons.mp sure
    obtain ⟨text, rfl⟩ := FailsOnly.exists_ok now
    exact ih later

theorem fault_append (ends : first.fault = none) (endsToo : second.fault = none) :
    (first.append second).fault = none := by
  rw [append, ends]
  exact endsToo

end Report

namespace Settings

variable {s : Settings}

theorem sure_stepLines {steps : List Step} (all : ∀ step ∈ steps, step.Canonical) (index : Nat) :
    ∀ line ∈ stepLines index (steps.map .step), Sure line := by
  induction steps generalizing index with
  | nil => exact List.forall_mem_nil _
  | cons step rest ih =>
    obtain ⟨first, others⟩ := List.forall_mem_cons.mp all
    refine List.forall_mem_cons.mpr ⟨?_, ih others (index + 1)⟩
    refine .bind (.ok step) ?_
    rintro _ ⟨⟩
    apply FailsOnly.bind first.failsOnly_describeStep
    intro _ _
    exact .pure _

theorem Canonical.fault_sequenceReport (canonical : s.Canonical) (which : Sequence) :
    (s.sequenceReport which).fault = none := by
  obtain ⟨steps, isItems, all⟩ := canonical.items which
  simp only [sequenceReport, sizeOfValue_eq_ok_iff.mpr ⟨_, isItems, rfl⟩, itemsOf_eq_ok_iff.mpr isItems]
  apply Report.fault_ofLines
  exact List.forall_mem_cons.mpr ⟨.ok _, sure_stepLines all 0⟩

/-- A valid configuration with canonical contents is shown from the first line to the last. -/
theorem Canonical.report_complete (canonical : s.Canonical) (valid : s.Valid) :
    s.report.fault = none := by
  have periods {low high : SettingField} (title : String) (first : low.isNumeric = true)
      (second : high.isNumeric = true) :
      Sure (rangeLine title formatMilliseconds (s.get low) (s.get high)) :=
    failsOnly_rangeLine (failsOnly_formatMilliseconds (canonical.isNumber first))
      (failsOnly_formatMilliseconds (canonical.isNumber second))
  have strength {field : SettingField} (isBound : field ∈ strengthFields) :
      Sure (formatStrength (s.get field)) := by
    have within := canonical.strengths_iff.mp (valid_iff.mp valid).strengths field isBound
    exact failsOnly_formatStrength (canonical.strength_isNumber isBound) within.1 within.2
  have strengths {low high : SettingField} (title : String) (first : low ∈ strengthFields)
      (second : high ∈ strengthFields) :
      Sure (rangeLine title formatStrength (s.get low) (s.get high)) :=
    failsOnly_rangeLine (strength first) (strength second)
  have decibels : Sure (rangeLine "Decibel threshold: " showPlain s.decibelMin s.decibelMax) :=
    failsOnly_rangeLine (failsOnly_showPlain (canonical.holds .decibelMin))
      (failsOnly_showPlain (canonical.holds .decibelMax))
  have microphone : Sure (showPlain s.microphone) := failsOnly_showPlain (canonical.holds .microphone)
  have alert : Sure (nameOf s.alert) := failsOnly_nameOf (canonical.holds .alert)
  unfold report
  refine Report.fault_append (Report.fault_append (Report.fault_ofLines ?_) ?_) ?_
  · simp only [List.forall_mem_cons]
    refine ⟨.ok _, .ok _, .ok _, ?_, ?_, .map decibels, .map microphone, .map alert, ?_, ?_,
      List.forall_mem_nil _⟩
    · exact periods _ (rfl : SettingField.idleMin.isNumeric = true)
        (rfl : SettingField.idleMax.isNumeric = true)
    · exact periods _ (rfl : SettingField.actionMin.isNumeric = true)
        (rfl : SettingField.actionMax.isNumeric = true)
    · exact strengths _ (by decide : SettingField.shockMin ∈ strengthFields)
        (by decide : SettingField.shockMax ∈ strengthFields)
    · exact strengths _ (by decide : SettingField.vibeMin ∈ strengthFields)
        (by decide : SettingField.vibeMax ∈ strengthFields)
  · exact canonical.fault_sequenceReport .corrections
  · exact canonical.fault_sequenceReport .affirmations

end Settings

end TrainingCollar
