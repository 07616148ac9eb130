import Mathlib.Data.List.InsertIdx
import TrainingCollar.Proofs.Strength
import TrainingCollar.Store.Mutation

/-! # Edits in place

Appending a step to a list or removing one edits the list itself, and only the step is checked. Wherever
else the list stands, the configuration shows other contents too. Two kinds of places can hold a list where
nothing forbids it: a bound of the loudness, and an entry of a mapping that is the range of a step of the
other sequence. Nobody compares the two bounds, or the two entries, again after an edit.
`Settings.Guarded` is what is left of validity then: whatever else a configuration has to be is kept by every
edit.
-/

namespace TrainingCollar

namespace Value

variable {v w : Value}

/-- A value that can be run through is no number. -/
theorem number?_exposed_of_items? {items : List Value} (isItems : v.items? = some items) :
    v.exposed.number? = none := by
  unfold items? at isItems
  cases isExposed : v.exposed with
  | bool | int | float =>
    rw [isExposed] at isItems
    cases isItems
  | _ => rfl

/-- A value into which a collection was planted is no number, unless it is the number that was there. -/
theorem eq_of_isSome_number?_plant {planted : Value} (noNumber : planted.exposed.number? = none)
    {path : List Nat} (number : (plant planted path v).exposed.number?.isSome = true) :
    plant planted path v = v := by
  cases path with
  | nil =>
    rw [plant, noNumber] at number
    cases number
  | cons position path =>
    cases v with
    | list | tuple | map => cases number
    | step s =>
      unfold plant at number
      split at number <;> cases number
    | settings s =>
      unfold plant at number
      split at number <;> cases number
    | _ => rfl

/-! ## Ranges that are mappings -/

/-- The same value, or a mapping with the same keys. -/
def SameKeys (v w : Value) : Prop :=
  v = w ∨ ∃ entries others, v = .map entries ∧ w = .map others ∧
    entries.map Prod.fst = others.map Prod.fst

theorem SameKeys.items? (same : v.SameKeys w) : v.items? = w.items? := by
  rcases same with rfl | ⟨entries, others, rfl, rfl, keys⟩
  · rfl
  · exact congrArg some keys

theorem SameKeys.trans {u : Value} (first : v.SameKeys w) (second : w.SameKeys u) : v.SameKeys u := by
  rcases first with rfl | ⟨entries, others, rfl, rfl, keys⟩
  · exact second
  · rcases second with rfl | ⟨_, lasts, same, rfl, lastKeys⟩
    · exact .inr ⟨entries, others, rfl, rfl, keys⟩
    · cases same
      exact .inr ⟨entries, lasts, rfl, rfl, keys.trans lastKeys⟩

/-- Planting something in an entry keeps the keys. -/
theorem sameKeys_plantInEntry (planted : Value) (niche : Niche) (v : Value) :
    (plantInEntry planted niche v).SameKeys v := by
  cases v with
  | map entries =>
    refine .inr ⟨_, entries, rfl, rfl, List.ext_getElem? fun position => ?_⟩
    rw [List.getElem?_map, List.getElem?_map, List.getElem?_modify]
    split <;> cases entries[position]? <;> rfl
  | _ => exact .inl rfl

end Value

namespace Step

variable {s : Step} {bounds : Stimulus → Option (Value × Value)} {list : Value} {niches : List Niche}

/-- What is acceptable about a step apart from the entries of ranges that are mappings: with other entries
for the same keys it is accepted. -/
def Sturdy (bounds : Stimulus → Option (Value × Value)) (s : Step) : Prop :=
  ∃ time strength : Value, s.time.SameKeys time ∧ s.strength.SameKeys strength ∧
    Accepted bounds { s with time := time, strength := strength }

theorem Accepted.sturdy (accepted : s.Accepted bounds) : s.Sturdy bounds :=
  ⟨s.time, s.strength, .inl rfl, .inl rfl, accepted⟩

/-- Each strength of such a step lies between the bounds of its stimulus, if it has bounds. -/
theorem Sturdy.strengths (sturdy : s.Sturdy bounds) : ∃ kind strengths, s.kind = .choice (.stimulus kind) ∧
    s.strength.items? = some strengths ∧ ∀ low high, bounds kind = some (low, high) → low.Numeric →
      ∀ strength ∈ strengths, low.le? strength = some true ∧ strength.le? high = some true := by
  obtain ⟨_, _, _, same, accepted⟩ := sturdy
  rw [same.items?]
  exact accepted.strengths

theorem Sturdy.fill (sturdy : s.Sturdy bounds) (list : Value) (niche : Niche) :
    (Step.fill list s niche).Sturdy bounds := by
  obtain ⟨time, strength, sameTime, sameStrength, accepted⟩ := sturdy
  unfold Step.fill
  split
  · exact ⟨time, strength, sameTime, (Value.sameKeys_plantInEntry ..).trans sameStrength, accepted⟩
  · exact ⟨time, strength, (Value.sameKeys_plantInEntry ..).trans sameTime, sameStrength, accepted⟩

theorem Sturdy.fillAll (sturdy : s.Sturdy bounds) (list : Value) (niches : List Niche) (position : Nat) :
    (Step.fillAll list niches position s).Sturdy bounds := by
  unfold Step.fillAll
  induction niches.filter (·.position == position) generalizing s with
  | nil => exact sturdy
  | cons niche rest ih => exact ih (sturdy.fill list niche)

/-- A step without places is left as it is. -/
theorem fillAll_of_clear {position : Nat} (clear : niches.all (·.position != position) = true) :
    fillAll list niches position s = s := by
  have none : niches.filter (·.position == position) = [] := by
    refine List.filter_eq_nil_iff.mpr fun niche member same => ?_
    have other := List.all_eq_true.mp clear niche member
    rw [bne, same] at other
    cases other
  rw [fillAll, none]
  rfl

/-! ## Steps in which a list may stand -/

/-- Steps that are acceptable where no list stands in them, and as far as their keys go elsewhere. -/
def AllSturdy (bounds : Stimulus → Option (Value × Value)) (clear : Nat → Bool) (steps : List Step) : Prop :=
  ∀ (position : Nat) (s : Step), steps[position]? = some s →
    s.Sturdy bounds ∧ (clear position = true → s.Accepted bounds)

namespace AllSturdy

variable {clear : Nat → Bool} {steps : List Step}

theorem of_accepted (accepted : ∀ s ∈ steps, s.Accepted bounds) : AllSturdy bounds clear steps := by
  intro position s there
  have accepted := accepted s (List.mem_of_getElem? there)
  exact ⟨accepted.sturdy, fun _ => accepted⟩

theorem accepted (all : AllSturdy bounds clear steps) (clears : ∀ position, clear position = true) :
    ∀ s ∈ steps, s.Accepted bounds := by
  intro s member
  obtain ⟨position, there⟩ := List.mem_iff_getElem?.mp member
  exact (all position s there).2 (clears position)

theorem append (all : AllSturdy bounds clear steps) (accepted : s.Accepted bounds) :
    AllSturdy bounds clear (steps ++ [s]) := by
  intro position step there
  rw [List.getElem?_append] at there
  split at there
  · exact all position step there
  · obtain rfl := List.mem_singleton.mp (List.mem_of_getElem? there)
    exact ⟨accepted.sturdy, fun _ => accepted⟩

/-- The steps after one that is taken out move up. -/
theorem erase (all : AllSturdy bounds clear steps) {taken : Nat} {left : Nat → Bool}
    (moves : ∀ position, left position = clear (if position < taken then position else position + 1)) :
    AllSturdy bounds left (steps.eraseIdx taken) := by
  intro position step there
  rw [List.getElem?_eraseIdx] at there
  rw [moves]
  split at there
  · next before =>
    rw [if_pos before]
    exact all position step there
  · next after =>
    rw [if_neg after]
    exact all (position + 1) step there

end AllSturdy

/-- Filling in a list keeps what is acceptable about steps. -/
theorem AllSturdy.filled {steps : List Step} {content : Value}
    (all : AllSturdy bounds (fun position => niches.all (·.position != position)) steps)
    (isSteps : content.items? = some (steps.map .step)) :
    ∃ others : List Step, (Value.filled list niches content).items? = some (others.map .step) ∧
      AllSturdy bounds (fun position => niches.all (·.position != position)) others := by
  let others := steps.mapIdx (fillAll list niches)
  have kept : AllSturdy bounds (fun position => niches.all (·.position != position)) others := by
    intro position step there
    obtain ⟨s, isStep, rfl⟩ : ∃ s, steps[position]? = some s ∧ fillAll list niches position s = step := by
      simpa [others, List.getElem?_mapIdx] using there
    obtain ⟨sturdy, accepted⟩ := all position s isStep
    refine ⟨sturdy.fillAll list niches position, fun clear => ?_⟩
    rw [fillAll_of_clear clear]
    exact accepted clear
  have filledIn : (steps.map Value.step).mapIdx (Value.fillAt list niches) = others.map .step := by
    apply List.ext_getElem?
    intro position
    rw [List.getElem?_mapIdx, List.getElem?_map, List.getElem?_map, List.getElem?_mapIdx]
    cases steps[position]? <;> rfl
  cases content with
  | list items | tuple items =>
    obtain rfl : items = steps.map .step := Option.some.inj isSteps
    exact ⟨others, congrArg some filledIn, kept⟩
  | _ => exact ⟨steps, isSteps, all⟩

end Step

namespace Sharing

variable {sharing : Sharing} {which : Sequence}

theorem isClear_of_joined (joined : sharing.joined = true) (position : Nat) :
    sharing.isClear which position = true := by
  simp [isClear, niches, joined]

theorem isApart_iff : sharing.isApart = true ↔ (sharing.decibelMin = [] ∧ sharing.decibelMax = []) ∧
    sharing.corrections = [] ∧ sharing.affirmations = [] := by
  simp only [isApart, Bool.and_eq_true, List.isEmpty_iff, and_assoc]

theorem isClear_of_isApart (apart : sharing.isApart = true) (position : Nat) :
    sharing.isClear which position = true := by
  obtain ⟨_, corrections, affirmations⟩ := isApart_iff.mp apart
  cases which <;> simp [isClear, niches, corrections, affirmations]

end Sharing

/-- The places move up with the steps after the one that is taken out. -/
theorem Niche.all_without? (niches : List Niche) (taken position : Nat) :
    (niches.filterMap (without? taken)).all (·.position != position) =
      niches.all (·.position != if position < taken then position else position + 1) := by
  induction niches with
  | nil => rfl
  | cons niche rest ih =>
    rw [List.filterMap_cons, List.all_cons, ← ih]
    unfold without?
    grind

/-- So a step is clear then if it was so where it stood before. -/
theorem Sharing.isClear_without (sharing : Sharing) (which : Sequence) (taken position : Nat) :
    (sharing.without which taken).isClear which position =
      sharing.isClear which (if position < taken then position else position + 1) := by
  cases joined : sharing.joined with
  | true => cases which <;> simp [isClear, niches, without, joined]
  | false =>
    cases which <;> simp only [isClear, niches, without, joined, Bool.false_eq_true, if_false] <;>
      exact Niche.all_without? ..

namespace Edit

variable {sharing : Sharing} {which other : Sequence}

/-- No edit parts the lists of two sequences, -/
theorem joined_sharing (which : Sequence) (edit : Edit) (sharing : Sharing) :
    (edit.sharing which sharing).joined = sharing.joined := by
  cases edit with
  | append => rfl
  | erase => cases which <;> rfl

/-- moves the places in the bounds of the loudness, -/
theorem decibels_sharing (which : Sequence) (edit : Edit) (sharing : Sharing) :
    (edit.sharing which sharing).decibelMin = sharing.decibelMin ∧
      (edit.sharing which sharing).decibelMax = sharing.decibelMax := by
  cases edit with
  | append => exact ⟨rfl, rfl⟩
  | erase => cases which <;> exact ⟨rfl, rfl⟩

/-- moves those in the steps of the other list, -/
theorem isClear_sharing_of_ne (ne : sharing.areOne which other = false) (edit : Edit) :
    (edit.sharing which sharing).isClear other = sharing.isClear other := by
  cases edit with
  | append => rfl
  | erase position =>
    cases which <;> cases other <;> first | rfl | cases ne

/-- or lets a list stand in more places. -/
theorem isApart_sharing (apart : sharing.isApart = true) (edit : Edit) :
    (edit.sharing which sharing).isApart = true := by
  obtain ⟨decibels, corrections, affirmations⟩ := Sharing.isApart_iff.mp apart
  cases edit with
  | append => exact apart
  | erase position =>
    refine Sharing.isApart_iff.mpr ?_
    cases which <;> simp [Edit.sharing, Sharing.without, decibels, corrections, affirmations]

end Edit

namespace Settings

variable {s : Settings} {which : Sequence}

theorem sequence_set_steps (which other : Sequence) (content : Value) :
    sequence (s.set (.steps which) content) other =
      if other = which then content else s.sequence other := by
  cases which <;> cases other <;> rfl

theorem strengthBounds_set_steps (which : Sequence) (content : Value) :
    strengthBounds (s.set (.steps which) content) = s.strengthBounds := by
  funext kind
  cases which <;> cases kind <;> rfl

/-- The bounds of the stimuli are those in four of the fields. -/
theorem strengthBounds_of_same {other : Settings}
    (same : ∀ field ∈ strengthFields, other.get field = s.get field) :
    other.strengthBounds = s.strengthBounds := by
  have shock : other.shockMin = s.shockMin ∧ other.shockMax = s.shockMax :=
    ⟨same .shockMin (by decide), same .shockMax (by decide)⟩
  have vibe : other.vibeMin = s.vibeMin ∧ other.vibeMax = s.vibeMax :=
    ⟨same .vibeMin (by decide), same .vibeMax (by decide)⟩
  funext kind
  cases kind <;> simp only [strengthBounds, shock, vibe]

/-- With the same contents in the other fields, any steps will do that are acceptable one by one. -/
theorem Sound.of_same {other : Settings} (sound : s.Sound)
    (same : ∀ field, (∀ which, field ≠ .steps which) → other.get field = s.get field)
    (steps : ∀ which, ∃ steps : List Step, (other.sequence which).items? = some (steps.map .step) ∧
      ∀ step ∈ steps, step.Accepted s.strengthBounds) : other.Sound := by
  have unchanged (field : SettingField) (numeric : field.isNumeric = true) :
      other.get field = s.get field := same field (SettingField.ne_steps_of_isNumeric numeric)
  have bounds : other.strengthBounds = s.strengthBounds :=
    strengthBounds_of_same fun field member => unchanged field (strengthFields_isNumeric field member)
  have microphone : other.microphone = s.microphone := unchanged .microphone rfl
  have alert : other.alert = s.alert := same .alert nofun
  refine ⟨?_, ?_, ?_, microphone ▸ sound.microphone, alert ▸ sound.alert, bounds ▸ steps⟩
  · intro pair member
    obtain ⟨low, high⟩ := orderedPairs_isNumeric pair member
    rw [unchanged _ low, unchanged _ high]
    exact sound.ordered pair member
  · intro field member
    rw [unchanged field (periodFields_isNumeric field member)]
    exact sound.periods field member
  · intro field member
    rw [unchanged field (strengthFields_isNumeric field member)]
    exact sound.strengths field member

/-- Steps that are acceptable one by one can stand in a sequence in any order and number. -/
theorem Sound.set_steps (sound : s.Sound) (which : Sequence) {steps : List Step}
    (accepted : ∀ step ∈ steps, step.Accepted s.strengthBounds) :
    Sound (s.set (.steps which) (.list (steps.map .step))) := by
  apply sound.of_same
  · intro field noSteps
    exact SettingsOf.get_set_of_ne _ _ (noSteps which)
  · intro other
    rw [sequence_set_steps]
    split
    · exact ⟨steps, rfl, accepted⟩
    · exact sound.steps other

/-! ## What is left of validity -/

/-- The configuration without steps and with other bounds of the loudness. -/
def outline (s : Settings) (low high : Value) : Settings :=
  { s with decibelMin := low, decibelMax := high, corrections := .list [], affirmations := .list [],
           sharing := .none }

/-- Only these fields are concerned. -/
theorem get_outline (low high : Value) {field : SettingField} (notMin : field ≠ .decibelMin)
    (notMax : field ≠ .decibelMax) (noSteps : ∀ which, field ≠ .steps which) :
    (s.outline low high).get field = s.get field := by
  cases field with
  | decibelMin => exact absurd rfl notMin
  | decibelMax => exact absurd rfl notMax
  | steps which => exact absurd rfl (noSteps which)
  | _ => rfl

theorem strengthBounds_outline (low high : Value) : (s.outline low high).strengthBounds = s.strengthBounds := by
  funext kind
  cases kind <;> rfl

theorem Sound.outline (sound : s.Sound) {low high : Value} (ordered : low.le? high = some true) :
    Sound (s.outline low high) where
  ordered pair member := by
    by_cases band : pair = (.decibelMin, .decibelMax)
    · rw [band]
      exact ordered
    · have others : ∀ pair ∈ orderedPairs, pair ≠ (.decibelMin, .decibelMax) →
          (pair.1 ≠ .decibelMin ∧ pair.1 ≠ .decibelMax) ∧
            pair.2 ≠ .decibelMin ∧ pair.2 ≠ .decibelMax := by decide
      obtain ⟨first, second⟩ := others pair member band
      obtain ⟨firstNumeric, secondNumeric⟩ := orderedPairs_isNumeric pair member
      rw [get_outline _ _ first.1 first.2 (SettingField.ne_steps_of_isNumeric firstNumeric),
        get_outline _ _ second.1 second.2 (SettingField.ne_steps_of_isNumeric secondNumeric)]
      exact sound.ordered pair member
  periods field member := by
    have others : ∀ field ∈ periodFields, field ≠ .decibelMin ∧ field ≠ .decibelMax := by decide
    rw [get_outline _ _ (others field member).1 (others field member).2
      (SettingField.ne_steps_of_isNumeric (periodFields_isNumeric field member))]
    exact sound.periods field member
  strengths field member := by
    have others : ∀ field ∈ strengthFields, field ≠ .decibelMin ∧ field ≠ .decibelMax := by decide
    rw [get_outline _ _ (others field member).1 (others field member).2
      (SettingField.ne_steps_of_isNumeric (strengthFields_isNumeric field member))]
    exact sound.strengths field member
  microphone := sound.microphone
  alert := sound.alert
  steps which := by
    cases which <;> exact ⟨[], rfl, nofun⟩

/-- Validity, apart from the order of the bounds of the loudness where a list stands in them, and from that
of the entries of ranges that are mappings where a list stands in them. -/
structure Guarded (s : Settings) : Prop where
  /-- Without steps and with bounds of the loudness that are in order, the configuration is valid. -/
  rest : ∀ low high : Value, low.le? high = some true → (s.outline low high).Valid
  /-- The bounds of the loudness are in order if no list stands in them, or if both are numbers. -/
  band : s.sharing.decibelMin = [] ∧ s.sharing.decibelMax = [] ∨
      s.decibelMin.exposed.number?.isSome = true ∧ s.decibelMax.exposed.number?.isSome = true →
    s.decibelMin.le? s.decibelMax = some true
  /-- Each step is acceptable, if only by its keys where a list stands in its ranges. -/
  steps : ∀ which, ∃ steps : List Step, (s.sequence which).items? = some (steps.map .step) ∧
    Step.AllSturdy s.strengthBounds (s.sharing.isClear which) steps

theorem Valid.guarded (valid : s.Valid) : s.Guarded where
  rest _ _ ordered := valid_iff.mpr ((valid_iff.mp valid).outline ordered)
  band _ := (valid_iff.mp valid).ordered (.decibelMin, .decibelMax) (by decide)
  steps which := by
    obtain ⟨steps, isSteps, accepted⟩ := (valid_iff.mp valid).steps which
    exact ⟨steps, isSteps, .of_accepted accepted⟩

namespace Guarded

/-- With its bounds of the loudness in order and all steps acceptable, the configuration is valid. -/
theorem valid_of_steps (guarded : s.Guarded) (ordered : s.decibelMin.le? s.decibelMax = some true)
    (steps : ∀ which, ∃ steps : List Step, (s.sequence which).items? = some (steps.map .step) ∧
      ∀ step ∈ steps, step.Accepted s.strengthBounds) : s.Valid := by
  refine valid_iff.mpr ((valid_iff.mp (guarded.rest _ _ ordered)).of_same ?_ ?_)
  · intro field noSteps
    cases field with
    | steps which => exact absurd rfl (noSteps which)
    | _ => rfl
  · rw [strengthBounds_outline]
    exact steps

theorem valid_of_clear (guarded : s.Guarded) (ordered : s.decibelMin.le? s.decibelMax = some true)
    (clear : ∀ which position, s.sharing.isClear which position = true) : s.Valid := by
  refine guarded.valid_of_steps ordered fun which => ?_
  obtain ⟨steps, isSteps, all⟩ := guarded.steps which
  exact ⟨steps, isSteps, all.accepted (clear which)⟩

theorem valid (guarded : s.Guarded) (apart : s.sharing.isApart = true) : s.Valid :=
  guarded.valid_of_clear (guarded.band (.inl (Sharing.isApart_iff.mp apart).1)) fun _ =>
    Sharing.isClear_of_isApart apart

theorem valid_of_numbers (guarded : s.Guarded) (low : s.decibelMin.exposed.number?.isSome = true)
    (high : s.decibelMax.exposed.number?.isSome = true)
    (clear : ∀ which position, s.sharing.isClear which position = true) : s.Valid :=
  guarded.valid_of_clear (guarded.band (.inr ⟨low, high⟩)) clear

/-- The strengths of all steps are within the bounds of the configuration, and these within what the device
accepts. -/
theorem withinDevice (guarded : s.Guarded) : s.WithinDevice := by
  have sound : Sound (s.outline (.int 0) (.int 0)) := valid_iff.mp (guarded.rest _ _ (by decide +kernel))
  intro which
  obtain ⟨steps, isSteps, all⟩ := guarded.steps which
  refine ⟨steps, isSteps, ?_⟩
  intro step member
  obtain ⟨position, there⟩ := List.mem_iff_getElem?.mp member
  obtain ⟨kind, strengths, isKind, isStrengths, between⟩ := (all position step there).1.strengths
  refine ⟨kind, strengths, isKind, isStrengths, ?_⟩
  intro low high bounds strength among
  rw [← strengthBounds_outline (.int 0) (.int 0)] at bounds
  obtain ⟨lowWithin, highWithin⟩ := sound.bounds_within bounds
  rw [strengthBounds_outline] at bounds
  obtain ⟨above, below⟩ := between low high bounds (Value.numeric_of_le?_left rfl lowWithin) strength among
  exact ⟨lowWithin, above, below, highWithin⟩

/-- The steps of a sequence that is a list. -/
theorem steps_of_list (guarded : s.Guarded) {items : List Value} (isList : s.sequence which = .list items) :
    ∃ steps : List Step, items = steps.map .step ∧
      Step.AllSturdy s.strengthBounds (s.sharing.isClear which) steps := by
  obtain ⟨steps, isSteps, all⟩ := guarded.steps which
  rw [isList, Value.items?_list, Option.some.injEq] at isSteps
  exact ⟨steps, isSteps, all⟩

end Guarded

/-! ## Editing a list -/

variable {edit : Edit} {items : List Value}

/-- Only a list is edited in place. -/
theorem withSteps_eq_ok_iff {changed : Settings} : s.withSteps which edit = .ok changed ↔
    ∃ items, s.sequence which = .list items ∧ s.withList which edit items = changed := by
  unfold withSteps
  split
  · next items isList => simp [isList]
  · next other => simpa using fun items isList => (other items isList).elim

theorem withSteps_of_list (isList : s.sequence which = .list items) (edit : Edit) :
    s.withSteps which edit = .ok (s.withList which edit items) :=
  withSteps_eq_ok_iff.mpr ⟨items, isList, rfl⟩

/-- Both sequences show an edit of the list of one of them, -/
theorem sequence_withList (which other : Sequence) (edit : Edit) (items : List Value) :
    (s.withList which edit items).sequence other = s.shownIn which (.list (edit.items items)) other := by
  cases other <;> rfl

/-- this one as its own contents. -/
theorem sequence_withList_self (which : Sequence) (edit : Edit) (items : List Value) :
    (s.withList which edit items).sequence which = .list (edit.items items) := by
  rw [sequence_withList, shownIn, if_pos (by simp [Sharing.areOne])]

/-- A bound of the loudness that is a number after an edit is the number that it was before. -/
theorem eq_of_isSome_number?_shown {lists : Sequence → Value}
    (noNumber : ∀ owner, (lists owner).exposed.number? = none) {places : List (Sequence × List Nat)}
    {content : Value} (number : (shown lists places content).exposed.number?.isSome = true) :
    shown lists places content = content := by
  induction places generalizing content with
  | nil => rfl
  | cons place rest ih =>
    obtain ⟨owner, path⟩ := place
    have later := ih number
    simp only [shown, List.foldl_cons] at number later ⊢
    rw [later] at number ⊢
    exact Value.eq_of_isSome_number?_plant (noNumber owner) number

namespace Guarded

/-- Both sequences are acceptable after an edit that leaves acceptable steps in the list. -/
theorem steps_withList (guarded : s.Guarded) {steps : List Step} (isSteps : edit.items items = steps.map .step)
    (all : Step.AllSturdy s.strengthBounds ((edit.sharing which s.sharing).isClear which) steps)
    (other : Sequence) : ∃ steps : List Step,
      ((s.withList which edit items).sequence other).items? = some (steps.map .step) ∧
        Step.AllSturdy s.strengthBounds ((edit.sharing which s.sharing).isClear other) steps := by
  rw [sequence_withList, shownIn]
  cases one : s.sharing.areOne which other with
  | false =>
    obtain ⟨others, isOthers, all⟩ := guarded.steps other
    rw [edit.isClear_sharing_of_ne one]
    exact all.filled isOthers
  | true =>
    refine ⟨steps, congrArg some isSteps, ?_⟩
    by_cases same : which = other
    · exact same ▸ all
    · have joined : s.sharing.joined = true := by simpa [Sharing.areOne, same] using one
      have stays := (edit.joined_sharing which s.sharing).trans joined
      exact .of_accepted (all.accepted (Sharing.isClear_of_joined stays))

/-- An edit that leaves acceptable steps in the list keeps everything else. -/
theorem withList (guarded : s.Guarded) {steps : List Step} (isSteps : edit.items items = steps.map .step)
    (all : Step.AllSturdy s.strengthBounds ((edit.sharing which s.sharing).isClear which) steps) :
    (s.withList which edit items).Guarded where
  rest := guarded.rest
  steps other := by
    have bounds : strengthBounds (s.withList which edit items) = s.strengthBounds := by
      funext kind
      cases kind <;> rfl
    rw [bounds]
    exact guarded.steps_withList isSteps all other
  band known := by
    let lists := s.shownIn which (.list (edit.items items))
    have noNumber (owner : Sequence) : (lists owner).exposed.number? = none := by
      obtain ⟨_, isOwner, _⟩ := guarded.steps_withList isSteps all owner
      rw [sequence_withList] at isOwner
      exact Value.number?_exposed_of_items? isOwner
    have places := edit.decibels_sharing which s.sharing
    have same : shown lists s.sharing.decibelMin s.decibelMin = s.decibelMin ∧
        shown lists s.sharing.decibelMax s.decibelMax = s.decibelMax := by
      rcases known with ⟨noneLow, noneHigh⟩ | ⟨low, high⟩
      · rw [places.1.symm.trans noneLow, places.2.symm.trans noneHigh]
        exact ⟨rfl, rfl⟩
      · exact ⟨eq_of_isSome_number?_shown noNumber low, eq_of_isSome_number?_shown noNumber high⟩
    change (shown lists _ _).le? (shown lists _ _) = some true
    change _ ∨ (shown lists _ _).exposed.number?.isSome = true ∧
      (shown lists _ _).exposed.number?.isSome = true at known
    rw [same.1, same.2] at known ⊢
    exact guarded.band (known.imp_left fun none =>
      ⟨places.1.symm.trans none.1, places.2.symm.trans none.2⟩)

/-- Appending an acceptable step keeps a configuration guarded, -/
theorem append (guarded : s.Guarded) (isList : s.sequence which = .list items) {step : Step}
    (accepted : step.Accepted s.strengthBounds) : (s.withList which (.append step) items).Guarded := by
  obtain ⟨steps, rfl, all⟩ := guarded.steps_of_list isList
  have isSteps : (Edit.append step).items (steps.map .step) = (steps ++ [step]).map .step := by
    rw [List.map_append]
    rfl
  exact guarded.withList isSteps (all.append accepted)

/-- and so does taking out any step. -/
theorem erase (guarded : s.Guarded) (isList : s.sequence which = .list items) (position : Nat) :
    (s.withList which (.erase position) items).Guarded := by
  obtain ⟨steps, rfl, all⟩ := guarded.steps_of_list isList
  exact guarded.withList (List.eraseIdx_map ..) (all.erase (Sharing.isClear_without _ _ _))

/-- More is not kept: here the corrections stand in the range of an affirmation as the lesser entry, and a
step that is appended to them makes it the greater one. -/
example :
    let beep : Step := ⟨.choice (.stimulus .beep), .int 0, .int 0, .choice (.resolution .random),
      .tuple [.int 0, .int 0], .choice (.resolution .fixed), .tuple [.int 0]⟩
    let mapped : Step := { beep with time := .map [(.int 0, .list []), (.int 1, .list [])] }
    let s : Settings := { Settings.defaults with
      affirmations := .list [.step mapped]
      sharing := ⟨false, [], [], [], [⟨0, false, 0, []⟩]⟩ }
    s.Valid ∧ ¬ Valid (s.withList .corrections (.append beep) []) := by decide +kernel

end Guarded

end Settings

end TrainingCollar
