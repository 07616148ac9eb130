import Mathlib.Data.List.InsertIdx
import Mathlib.Logic.Relation
import TrainingCollar.Proofs.InPlace
import TrainingCollar.SettingsFile

/-! # Attempts on the configuration in force

Each of the four mutations has its own way to another configuration, and two of them edit the one in
force before they are done. `Mutation.attempt_clean` says that what any of them leaves behind is guarded
if it was so before, and that one that fails leaves what was there, with one exception. Writing the
record of an edit is all that can still fail after it, and it does if the ranges of the step hold an
integer beyond the limit of digits. The edit has slipped then: it is done, and the attempt has failed.
`Slip` lists what has to come together for it.
-/

namespace TrainingCollar

/-! ## Writing about a step -/

namespace Step

variable {s : Step}

/-- Whether every integer in the two ranges of a step is within the limit of digits. -/
def isWritable (s : Step) : Bool :=
  [s.time, s.strength].all fun range => (Value.list (range.items?.getD [])).hasText

/-- The names of a step's choices are known, and its ranges can be run through. -/
structure Shaped (s : Step) : Prop where
  kind : ∃ c, s.kind = .choice c
  timeMode : ∃ c, s.timeMode = .choice c
  time : ∃ items, s.time.items? = some items
  strengthMode : ∃ c, s.strengthMode = .choice c
  strength : ∃ items, s.strength.items? = some items

theorem Accepted.shaped {bounds : Stimulus → Option (Value × Value)} (accepted : s.Accepted bounds) :
    s.Shaped := by
  obtain ⟨kind, isKind, _⟩ := accepted.bounded
  obtain ⟨timeMode, time, isTimeMode, isTime, _⟩ := accepted.time
  obtain ⟨strengthMode, strength, isStrengthMode, isStrength, _⟩ := accepted.strength
  exact ⟨⟨_, isKind⟩, ⟨_, isTimeMode⟩, ⟨_, isTime⟩, ⟨_, isStrengthMode⟩, ⟨_, isStrength⟩⟩

/-- The entries of a mapping have no part in its items. -/
theorem Sturdy.shaped {bounds : Stimulus → Option (Value × Value)} (sturdy : s.Sturdy bounds) :
    s.Shaped := by
  obtain ⟨time, strength, sameTime, sameStrength, accepted⟩ := sturdy
  obtain ⟨kind, timeMode, isTime, strengthMode, isStrength⟩ := accepted.shaped
  exact ⟨kind, timeMode, sameTime.items? ▸ isTime, strengthMode, sameStrength.items? ▸ isStrength⟩

/-- A shaped step is written in one line, unless an integer is in the way. -/
theorem Shaped.brief (shaped : s.Shaped) :
    (∃ text, s.brief = .ok text) ∧ s.isWritable = true ∨
      s.brief = .error .badValue ∧ s.isWritable = false := by
  obtain ⟨⟨kind, isKind⟩, ⟨timeMode, isTimeMode⟩, ⟨time, isTime⟩, ⟨strengthMode, isStrengthMode⟩,
    ⟨strength, isStrength⟩⟩ := shaped
  have timeItems := itemsOf_eq_ok_iff.mpr isTime
  have strengthItems := itemsOf_eq_ok_iff.mpr isStrength
  simp only [Step.brief, isWritable, rangeText, isKind, isTimeMode, isStrengthMode, isTime, isStrength,
    timeItems, strengthItems, nameOf, bind, Except.bind, Option.getD_some, List.all_cons, List.all_nil]
  cases (Value.list time).hasText
  · exact .inr ⟨rfl, rfl⟩
  · cases (Value.list strength).hasText
    · exact .inr ⟨rfl, rfl⟩
    · exact .inl ⟨⟨_, rfl⟩, rfl⟩

/-- What writing about a shaped step comes to. -/
def written (s : Step) : Except Fault Unit := if s.isWritable then .ok () else .error .badValue

end Step

@[simp] theorem Attempt.outcome_rejected {live : Settings} (warning : Fault → String) (fault : Fault) :
    (rejected live warning fault).outcome = .error fault := by
  cases fault <;> rfl

theorem Attempt.outcome_edited {changed : Settings} (record : String → String) {step : Step}
    (shaped : step.Shaped) : (edited changed record step.brief).outcome = step.written := by
  unfold Step.written
  rcases shaped.brief with ⟨⟨text, isText⟩, short⟩ | ⟨unwritten, long⟩
  · rw [isText, short]
    rfl
  · rw [unwritten, long]
    rfl

/-! ## Edits that slip -/

open Settings in
/-- A mutation edits the configuration in force and fails nevertheless: everything about it is in order,
but the step that it adds or removes cannot be written about. -/
inductive Slip (live : Settings) : Mutation → Settings → Prop
  | added {key x : Value} {which : Sequence} {step : Step} {items : List Value} :
      sequenceOf key = .ok which → Step.read x = .ok step → step.Accepted live.strengthBounds →
      live.sequence which = .list items → step.isWritable = false →
      Slip live (.add key x) (live.withList which (.append step) items)
  | removed {key index : Value} {which : Sequence} {position : Nat} {step : Step}
      {items : List Value} :
      sequenceOf key = .ok which → live.sequence which = .list items →
      positionOf which.name index items.length = .ok position → items[position]? = some (.step step) →
      step.isWritable = false → Slip live (.remove key index) (live.withList which (.erase position) items)

/-- What slips lead to, one after the other. -/
def Drifts : Settings → Settings → Prop :=
  Relation.ReflTransGen fun live changed => ∃ mutation, Slip live mutation changed

/-- An attempt that leaves a guarded configuration behind. If it fails this is the one it began with,
unless the mutation slips. -/
structure Attempt.Clean (live : Settings) (mutation : Mutation) (a : Attempt) : Prop where
  guarded : a.live.Guarded
  kept : ∀ fault, a.outcome = .error fault →
    a.live = live ∨ fault = .badValue ∧ Slip live mutation a.live

namespace Attempt.Clean

variable {live changed : Settings} {mutation : Mutation}

theorem failed (guarded : live.Guarded) (fault : Fault) : Clean live mutation (.failed live fault) :=
  ⟨guarded, fun _ _ => .inl rfl⟩

theorem rejected (guarded : live.Guarded) (warning : Fault → String) (fault : Fault) :
    Clean live mutation (.rejected live warning fault) := by
  unfold Attempt.rejected
  split
  · exact ⟨guarded, fun _ _ => .inl rfl⟩
  · exact failed guarded fault

theorem accepted (guarded : changed.Guarded) (records : List Record) :
    Clean live mutation (.accepted records changed) :=
  ⟨guarded, nofun⟩

/-- An edit is done whether or not it can be written about. -/
theorem edited (guarded : changed.Guarded) (record : String → String) {step : Step}
    (shaped : step.Shaped) (slips : step.isWritable = false → Slip live mutation changed) :
    Clean live mutation (.edited changed record step.brief) := by
  rcases shaped.brief with ⟨⟨text, written⟩, _⟩ | ⟨unwritten, long⟩
  · rw [written]
    exact accepted guarded _
  · rw [unwritten]
    refine ⟨guarded, fun fault failed => .inr ⟨?_, slips long⟩⟩
    exact (Except.error.inj failed).symm

end Attempt.Clean

namespace Settings

variable {live : Settings}

theorem merged_valid {entries : List (Value × Value)} {changed : List SettingField}
    {candidate : Settings} (merged : live.merged entries = .ok (changed, candidate)) :
    candidate.Valid := by
  simp only [Settings.merged, ↓check_eq_ok_iff, bind_eq_ok_iff, pure_eq_ok_iff,
    Prod.mk.injEq] at merged
  obtain ⟨_, _, _, _, passed, _, rfl⟩ := merged
  exact passed

theorem attemptUpdate_clean (guarded : live.Guarded) (changes : Value)
    (fields : List (String × Value)) :
    (live.attemptUpdate changes fields).Clean live (.update changes fields) := by
  unfold attemptUpdate
  split
  · exact .failed guarded _
  · dsimp only
    split
    · next merged => exact .accepted (merged_valid merged).guarded _
    · split
      · exact .rejected guarded _ _
      · exact .failed guarded _

theorem attemptReplace_clean (guarded : live.Guarded) (replacement : Value) :
    (live.attemptReplace replacement).Clean live (.replace replacement) := by
  unfold attemptReplace
  split
  · split
    · next passed => exact .accepted (Valid.guarded passed) _
    · exact .rejected guarded _ _
  · exact .failed guarded _

/-- A valid configuration takes the place of any other. -/
theorem attemptReplace_of_valid {s : Settings} (valid : s.Valid) (live : Settings) :
    live.attemptReplace (.settings s) = .accepted [.passed, ⟨.store, .info, "Settings replaced"⟩] s := by
  have valid : s.validate = .ok () := valid
  simp only [attemptReplace, valid]

theorem attemptAdd_clean (guarded : live.Guarded) (key step : Value) :
    (live.attemptAdd key step).Clean live (.add key step) := by
  unfold attemptAdd
  split
  · exact .failed guarded _
  · next prepared =>
    simp only [prepareAdd, bind_eq_ok_iff, pure_eq_ok_iff, Prod.mk.injEq] at prepared
    obtain ⟨which, named, new, isRead, size, _, rfl, rfl, rfl⟩ := prepared
    dsimp only
    split
    · exact .rejected guarded _ _
    · next passed =>
      have accepted := validateStep_eq_ok_iff.mp passed
      split
      · exact .failed guarded _
      · next edit =>
        obtain ⟨items, isList, rfl⟩ := withSteps_eq_ok_iff.mp edit
        exact .edited (guarded.append isList accepted) _ accepted.shaped
          (.added named isRead accepted isList)

theorem lt_of_positionOf {name : String} {index : Value} {size position : Nat}
    (found : positionOf name index size = .ok position) : position < size := by
  unfold positionOf at found
  split at found
  · split at found
    · next inRange =>
      cases found
      omega
    · split at found <;> cases found
  · split at found <;> cases found

/-- At each position of a list is a step that can be written about, unless an integer is in the way. -/
theorem Guarded.shaped_of_list (guarded : live.Guarded) {which : Sequence} {items : List Value}
    (isList : live.sequence which = .list items) {position : Nat} (bound : position < items.length) :
    ∃ step : Step, items[position]? = some (.step step) ∧ step.Shaped := by
  obtain ⟨steps, rfl, all⟩ := guarded.steps_of_list isList
  rw [List.length_map] at bound
  have there := List.getElem?_eq_getElem bound
  exact ⟨steps[position], by rw [List.getElem?_map, there]; rfl, (all position _ there).1.shaped⟩

theorem attemptRemove_clean (guarded : live.Guarded) (key index : Value) :
    (live.attemptRemove key index).Clean live (.remove key index) := by
  unfold attemptRemove
  split
  · exact .failed guarded _
  · next prepared =>
    simp only [prepareRemove, bind_eq_ok_iff, itemsOf_eq_ok_iff, pure_eq_ok_iff,
      Prod.mk.injEq] at prepared
    obtain ⟨which, named, items, isItems, position, found, rfl, rfl, rfl⟩ := prepared
    split
    · exact .failed guarded _
    · next edit =>
      obtain ⟨others, isList, rfl⟩ := withSteps_eq_ok_iff.mp edit
      rw [isList, Value.items?_list] at isItems
      obtain rfl : items = others := (Option.some.inj isItems).symm
      obtain ⟨step, there, shaped⟩ := guarded.shaped_of_list isList (lt_of_positionOf found)
      have removed : items.getD position .null = .step step := by
        rw [List.getD_eq_getElem?_getD, there, Option.getD_some]
      rw [removed]
      exact .edited (guarded.erase isList position) _ shaped (.removed named isList found there)

end Settings

namespace Settings

variable {live : Settings} {key : Value} {which : Sequence} {items : List Value}

/-! ## Editing the list that a key names -/

/-- Adding to a list begins with reading a step. -/
theorem prepareAdd_of_list (named : sequenceOf key = .ok which) (isList : live.sequence which = .list items)
    (x : Value) :
    live.prepareAdd key x = (Step.read x).map fun step => (which, step, items.length) := by
  have size : sizeOfValue (live.sequence which) = .ok items.length := by
    rw [isList]
    rfl
  simp only [prepareAdd, named, size, bind, Except.bind]
  cases Step.read x <;> rfl

/-- What cannot be read as a step is not added, -/
theorem attemptAdd_of_unread (named : sequenceOf key = .ok which) {x : Value} {fault : Fault}
    (unread : Step.read x = .error fault) : live.attemptAdd key x = .failed live fault := by
  have unprepared : live.prepareAdd key x = .error fault := by
    rw [prepareAdd, named, unread]
    rfl
  rw [attemptAdd, unprepared]

/-- nor is a step that does not pass its check. -/
theorem attemptAdd_of_refused (named : sequenceOf key = .ok which)
    (isList : live.sequence which = .list items) {x : Value} {step : Step} (isRead : Step.read x = .ok step)
    {fault : Fault} (refused : validateStep step (fun kind => .ok (live.strengthBounds kind))
      (Violation.label which.name items.length) = .error fault) :
    live.attemptAdd key x = .rejected live
      (fun fault => "Rejected event step for " ++ which.name ++ ": " ++ fault.message) fault := by
  simp only [attemptAdd, prepareAdd_of_list named isList, isRead, Except.map, refused]

/-- One that passes is appended, and then written about. -/
theorem attemptAdd_of_list (named : sequenceOf key = .ok which)
    (isList : live.sequence which = .list items) {x : Value} {step : Step} (isRead : Step.read x = .ok step)
    (accepted : step.Accepted live.strengthBounds) :
    live.attemptAdd key x = .edited (live.withList which (.append step) items)
      (fun brief => "Added " ++ brief ++ " as " ++ Violation.label which.name items.length) step.brief := by
  simp only [attemptAdd, prepareAdd_of_list named isList, isRead, Except.map,
    validateStep_eq_ok_iff.mpr accepted, withSteps_of_list isList]

/-- What is removed from a list is decided by the position that the index names. -/
theorem prepareRemove_of_list (named : sequenceOf key = .ok which)
    (isList : live.sequence which = .list items) (index : Value) :
    live.prepareRemove key index = (positionOf which.name index items.length).map fun position =>
      (which, position, items.getD position .null) := by
  have isItems : itemsOf (live.sequence which) = .ok items := by
    rw [isList]
    rfl
  simp only [prepareRemove, named, isItems, bind, Except.bind]
  cases positionOf which.name index items.length <;> rfl

/-- Where an index names no position nothing is removed. -/
theorem attemptRemove_of_misplaced (named : sequenceOf key = .ok which)
    (isList : live.sequence which = .list items) {index : Value} {fault : Fault}
    (misplaced : positionOf which.name index items.length = .error fault) :
    live.attemptRemove key index = .failed live fault := by
  rw [attemptRemove, prepareRemove_of_list named isList, misplaced]
  rfl

/-- Otherwise the step there is taken out, and then written about. -/
theorem attemptRemove_of_list (named : sequenceOf key = .ok which)
    (isList : live.sequence which = .list items) {index : Value} {position : Nat} {step : Step}
    (found : positionOf which.name index items.length = .ok position)
    (there : items[position]? = some (.step step)) :
    live.attemptRemove key index = .edited (live.withList which (.erase position) items)
      (fun brief => "Removed " ++ brief ++ " from " ++ Violation.label which.name position) step.brief := by
  have removed : items.getD position .null = .step step := by
    rw [List.getD_eq_getElem?_getD, there, Option.getD_some]
  simp only [attemptRemove, prepareRemove_of_list named isList, found, Except.map, removed,
    withSteps_of_list isList]
  rfl

end Settings

theorem Mutation.attempt_clean {live : Settings} (guarded : live.Guarded) (mutation : Mutation) :
    (mutation.attempt live).Clean live mutation := by
  cases mutation with
  | update changes fields => exact Settings.attemptUpdate_clean guarded changes fields
  | replace settings => exact Settings.attemptReplace_clean guarded settings
  | add key step => exact Settings.attemptAdd_clean guarded key step
  | remove key index => exact Settings.attemptRemove_clean guarded key index

namespace Slip

variable {live changed : Settings} {mutation : Mutation}

/-- A mutation that slips fails, with the edit done and without a record. -/
theorem attempt_eq (slip : Slip live mutation changed) (guarded : live.Guarded) :
    mutation.attempt live = .failed changed .badValue := by
  have unwritten {step : Step} (shaped : step.Shaped) (long : step.isWritable = false) :
      step.brief = .error .badValue := by
    rcases shaped.brief with ⟨_, short⟩ | ⟨unwritten, _⟩
    · cases short.symm.trans long
    · exact unwritten
  cases slip with
  | added named isRead accepted isList long =>
    rw [Mutation.attempt, Settings.attemptAdd_of_list named isList isRead accepted,
      unwritten accepted.shaped long]
    rfl
  | removed named isList found there long =>
    obtain ⟨_, isThere, shaped⟩ := guarded.shaped_of_list isList (Settings.lt_of_positionOf found)
    cases isThere.symm.trans there
    rw [Mutation.attempt, Settings.attemptRemove_of_list named isList found there, unwritten shaped long]
    rfl

theorem guarded (slip : Slip live mutation changed) (before : live.Guarded) : changed.Guarded := by
  have clean := mutation.attempt_clean before
  rw [slip.attempt_eq before] at clean
  exact clean.guarded

/-- The list has one step more or one step less, -/
theorem length_ne (slip : Slip live mutation changed) :
    ∃ which, changed.stepCount which ≠ live.stepCount which := by
  have edited (which : Sequence) (edit : Edit) (items : List Value) :
      (live.withList which edit items).stepCount which = (edit.items items).length := by
    rw [Settings.stepCount, Settings.sequence_withList_self]
    rfl
  have before {which : Sequence} {items : List Value} (isList : live.sequence which = .list items) :
      live.stepCount which = items.length := by
    rw [Settings.stepCount, isList]
    rfl
  cases slip with
  | @added _ _ which step items _ _ _ isList =>
    refine ⟨which, ?_⟩
    rw [edited, before isList, Edit.items, List.length_append, List.length_singleton]
    omega
  | @removed _ _ which position _ items _ isList found =>
    have inRange := Settings.lt_of_positionOf found
    refine ⟨which, ?_⟩
    rw [edited, before isList, Edit.items, List.length_eraseIdx_of_lt inRange]
    omega

/-- so that the configuration is another one. -/
theorem ne (slip : Slip live mutation changed) : changed ≠ live := by
  rintro rfl
  obtain ⟨_, differs⟩ := slip.length_ne
  exact differs rfl

end Slip

/-- A mutation that fails has slipped, or it has changed nothing. -/
theorem Mutation.failed_cases {live : Settings} (guarded : live.Guarded) {mutation : Mutation}
    {fault : Fault} (failed : (mutation.attempt live).outcome = .error fault) :
    (mutation.attempt live).live = live ∧ (∀ changed, ¬ Slip live mutation changed) ∨
      fault = .badValue ∧ Slip live mutation (mutation.attempt live).live := by
  refine ((mutation.attempt_clean guarded).kept fault failed).imp_left fun same => ⟨same, ?_⟩
  intro changed slip
  rw [slip.attempt_eq guarded] at same
  exact slip.ne same

end TrainingCollar
