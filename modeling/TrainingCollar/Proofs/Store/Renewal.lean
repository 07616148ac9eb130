import TrainingCollar.Proofs.Store.Documented

/-! # Updates without changes

An update coerces all fields again, also one that changes nothing. Validation alone lets more through
than coercion does, so a store that was given a configuration with other contents may refuse any
update, and so may one in which an edit has put a range of a step out of order.
`Settings.Guarded.renewal_accepted_iff` and `Settings.Guarded.renewal_unchanged_iff` say for which
configurations in force an update without changes is accepted, and which of them it leaves as they are.
-/

namespace TrainingCollar

/-- An update without changes. -/
def Mutation.renewal : Mutation := .update .null []

/-! ## Contents that coercion takes -/

namespace Value

variable {v w : Value}

/-- Values that are compared are no knots. -/
theorem exposed_of_le? (ordered : v.le? w = some true) : v.exposed = v ∧ w.exposed = w := by
  constructor
  · cases v with
    | knot => simp [le?, number?] at ordered
    | _ => rfl
  · cases w with
    | knot => cases v <;> simp [le?, number?] at ordered
    | _ => rfl

theorem IsNumber.isSome_number? (number : v.IsNumber) : v.number?.isSome = true := by
  obtain ⟨n, _, rfl⟩ := number
  rw [number?_ofNumber]
  rfl

end Value

/-- Steps are read as they are from a list or a tuple, and not from anything else. -/
theorem readField_steps_iff {which : Sequence} {steps : List Step} {given v : Value}
    (isItems : given.items? = some (steps.map .step)) : readField (.steps which) given = .ok v ↔
      (∃ items, given.sequence? = some items) ∧ v = stepsValue steps := by
  change (readSteps which.name given).map stepsValue = .ok v ↔ _
  unfold readSteps
  cases isSequence : given.sequence? with
  | none => exact iff_of_false nofun (by rintro ⟨⟨_, ⟨⟩⟩, _⟩)
  | some items =>
    obtain rfl : items = steps.map .step :=
      Option.some.inj ((Value.items?_of_sequence? isSequence).symm.trans isItems)
    dsimp only
    rw [readStepsFrom_steps, map_eq_ok_iff]
    constructor
    · rintro ⟨_, ⟨⟩, rfl⟩
      exact ⟨⟨_, rfl⟩, rfl⟩
    · rintro ⟨_, rfl⟩
      exact ⟨steps, rfl, rfl⟩

namespace Settings

/-- The configuration with the same contents, whose lists stand in their own fields only. -/
def unshared (s : Settings) : Settings := { s with sharing := .none }

theorem get_unshared (s : Settings) (field : SettingField) : s.unshared.get field = s.get field := by
  cases field with
  | steps which => cases which <;> rfl
  | _ => rfl

theorem unshared_of_alone {s : Settings} (alone : s.sharing = .none) : s.unshared = s := by
  rw [unshared, ← alone]

/-- Every numeric field has a number that a field takes, and the steps are in a list or a tuple. -/
structure Coercible (s : Settings) : Prop where
  numbers : ∀ field : SettingField, field.isNumeric = true → (s.get field).IsNumber
  sequences : ∀ which, ∃ items, (s.sequence which).sequence? = some items

variable {live built : Settings}

/-- An update without changes builds the configuration in force again. -/
theorem result_renewal : (Mutation.renewal.attempt live).result = (do
    let candidate ← build live
    candidate.validate
    return candidate) := by
  have entries : entriesOf .null = .ok [] := rfl
  rw [Mutation.renewal, result_update, entries]
  change ((build live >>= fun candidate => _) >>= _) = _
  simp only [bind, Except.bind]
  cases build live with
  | error fault => rfl
  | ok candidate =>
    simp only
    cases candidate.validate <;> rfl

/-- A numeric field of a sound configuration is no knot. -/
theorem Sound.exposed (sound : live.Sound) {field : SettingField} (numeric : field.isNumeric = true) :
    (live.get field).exposed = live.get field := by
  have paired : ∀ pair ∈ orderedPairs, (live.get pair.1).exposed = live.get pair.1 ∧
      (live.get pair.2).exposed = live.get pair.2 :=
    fun pair member => Value.exposed_of_le? (sound.ordered pair member)
  simp only [orderedPairs, List.forall_mem_cons] at paired
  obtain ⟨idle, action, decibel, shock, vibe, _⟩ := paired
  cases field with
  | idleMin => exact idle.1
  | idleMax => exact idle.2
  | actionMin => exact action.1
  | actionMax => exact action.2
  | decibelMin => exact decibel.1
  | decibelMax => exact decibel.2
  | microphone =>
    obtain ⟨n, _, isInt⟩ := sound.microphone
    change live.microphone.exposed = live.microphone
    rw [isInt]
    rfl
  | shockMin => exact shock.1
  | shockMax => exact shock.2
  | vibeMin => exact vibe.1
  | vibeMax => exact vibe.2
  | alert | steps => cases numeric

/-- A field without steps is read as it is, if it has a number or needs none. -/
theorem Sound.readField_iff (sound : live.Sound) {field : SettingField} {v : Value}
    (noSteps : ∀ which, field ≠ .steps which) : readField field (live.get field) = .ok v ↔
      v = live.get field ∧ (field.isNumeric = true → (live.get field).IsNumber) := by
  by_cases numeric : field.isNumeric = true
  · rw [readField_numeric_iff numeric, sound.exposed numeric]
    constructor
    · rintro ⟨rfl, number⟩
      exact ⟨rfl, fun _ => number⟩
    · rintro ⟨rfl, number⟩
      exact ⟨rfl, number numeric⟩
  · cases field with
    | alert =>
      obtain ⟨alert, isAlert⟩ := sound.alert
      have read : readField .alert live.alert = .ok live.alert := by
        rw [isAlert]
        rfl
      change readField .alert live.alert = .ok v ↔ v = live.alert ∧ _
      rw [read]
      exact ⟨fun same => ⟨(Except.ok.inj same).symm, nofun⟩, fun same => congrArg _ same.1.symm⟩
    | steps which => exact absurd rfl (noSteps which)
    | _ => exact absurd rfl numeric

/-- Building a sound configuration again puts its steps in lists and changes nothing else; it succeeds
if the configuration is coercible. -/
theorem Sound.build_eq_ok_iff (sound : live.Sound) : build live = .ok built ↔ live.Coercible ∧
    (∀ field, (∀ which, field ≠ .steps which) → built.get field = live.get field) ∧
      (∀ which, ∃ steps : List Step, (live.sequence which).items? = some (steps.map .step) ∧
        built.sequence which = stepsValue steps) ∧ built.sharing = .none := by
  rw [Settings.build_eq_ok_iff]
  constructor
  · rintro ⟨read, alone⟩
    have scalar (field : SettingField) (noSteps : ∀ which, field ≠ .steps which) :=
      (sound.readField_iff noSteps).mp (read field)
    refine ⟨⟨?_, ?_⟩, fun field noSteps => (scalar field noSteps).1, ?_, alone⟩
    · intro field numeric
      refine (scalar field ?_).2 numeric
      rintro which rfl
      cases numeric
    · intro which
      obtain ⟨steps, isItems, _⟩ := sound.steps which
      exact ((readField_steps_iff isItems).mp (read (.steps which))).1
    · intro which
      obtain ⟨steps, isItems, _⟩ := sound.steps which
      exact ⟨steps, isItems, ((readField_steps_iff isItems).mp (read (.steps which))).2⟩
  · rintro ⟨⟨numbers, sequences⟩, same, steps, alone⟩
    refine ⟨fun field => ?_, alone⟩
    by_cases isSteps : ∃ which, field = .steps which
    · obtain ⟨which, rfl⟩ := isSteps
      obtain ⟨steps, isItems, isBuilt⟩ := steps which
      exact (readField_steps_iff isItems).mpr ⟨sequences which, isBuilt⟩
    · have noSteps : ∀ which, field ≠ .steps which := not_exists.mp isSteps
      exact (sound.readField_iff noSteps).mpr ⟨same field noSteps, numbers field⟩

/-- A sound configuration that is built again is sound. -/
theorem Sound.build (sound : live.Sound) (isBuilt : Settings.build live = .ok built) : built.Sound := by
  obtain ⟨_, same, steps, _⟩ := sound.build_eq_ok_iff.mp isBuilt
  apply sound.of_same same
  intro which
  obtain ⟨items, isItems, isList⟩ := steps which
  obtain ⟨others, isOthers, accepted⟩ := sound.steps which
  refine ⟨others, ?_, accepted⟩
  rw [isList, ← isOthers, isItems]
  rfl

theorem Sound.result_renewal_iff (sound : live.Sound) :
    (Mutation.renewal.attempt live).result = .ok built ↔ Settings.build live = .ok built := by
  simp only [result_renewal, ↓check_eq_ok_iff, bind_eq_ok_iff, pure_eq_ok_iff]
  constructor
  · rintro ⟨_, isBuilt, _, rfl⟩
    exact isBuilt
  · intro isBuilt
    exact ⟨built, isBuilt, valid_iff.mpr (sound.build isBuilt), rfl⟩

/-- A coercible configuration is built into one with its steps in lists. -/
theorem Sound.exists_build (sound : live.Sound) (coercible : live.Coercible) :
    ∃ built, Settings.build live = .ok built := by
  obtain ⟨corrections, isCorrections, _⟩ := sound.steps .corrections
  obtain ⟨affirmations, isAffirmations, _⟩ := sound.steps .affirmations
  let relisted : Settings := (live.unshared.set (.steps .corrections) (stepsValue corrections)).set
    (.steps .affirmations) (stepsValue affirmations)
  have same : ∀ field, (∀ which, field ≠ .steps which) → relisted.get field = live.get field := by
    intro field noSteps
    rw [SettingsOf.get_set_of_ne _ _ (noSteps .affirmations),
      SettingsOf.get_set_of_ne _ _ (noSteps .corrections)]
    exact get_unshared live field
  refine ⟨relisted, sound.build_eq_ok_iff.mpr ⟨coercible, same, ?_, rfl⟩⟩
  intro which
  cases which with
  | corrections => exact ⟨corrections, isCorrections, rfl⟩
  | affirmations => exact ⟨affirmations, isAffirmations, rfl⟩

/-- An update without changes is accepted if the configuration in force is coercible. -/
theorem Sound.renewal_accepted_iff (sound : live.Sound) :
    (Mutation.renewal.attempt live).outcome = .ok () ↔ live.Coercible := by
  constructor
  · intro accepted
    have result := Attempt.result_eq_ok_iff.mpr ⟨accepted, rfl⟩
    exact (sound.build_eq_ok_iff.mp (sound.result_renewal_iff.mp result)).1
  · intro coercible
    obtain ⟨built, isBuilt⟩ := sound.exists_build coercible
    exact (Attempt.result_eq_ok_iff.mp (sound.result_renewal_iff.mpr isBuilt)).1

/-- It leaves the contents of the configuration in force as they are if moreover the steps are in lists. -/
theorem Sound.renewal_unchanged_iff (sound : live.Sound) :
    (Mutation.renewal.attempt live).result = .ok live.unshared ↔
      live.Coercible ∧ ∀ which, ∃ items, live.sequence which = .list items := by
  rw [sound.result_renewal_iff, sound.build_eq_ok_iff]
  constructor
  · rintro ⟨coercible, _, steps, _⟩
    refine ⟨coercible, fun which => ?_⟩
    obtain ⟨steps, _, isList⟩ := steps which
    exact ⟨_, (get_unshared live (.steps which)).symm.trans isList⟩
  · rintro ⟨coercible, lists⟩
    refine ⟨coercible, fun field _ => get_unshared live field, fun which => ?_, rfl⟩
    obtain ⟨items, isList⟩ := lists which
    obtain ⟨steps, isSteps, _⟩ := sound.steps which
    rw [isList, Value.items?_list, Option.some.injEq] at isSteps
    subst isSteps
    exact ⟨steps, by rw [isList]; rfl, (get_unshared live (.steps which)).trans isList⟩

/-- Coercion reads numbers in the bounds of the loudness and leaves steps alone, so what is valid after it
was valid before. -/
theorem Guarded.valid_of_build (guarded : live.Guarded) (isBuilt : Settings.build live = .ok built)
    (valid : built.Valid) : live.Valid := by
  have read (field : SettingField) := (Settings.build_eq_ok_iff.mp isBuilt).1 field
  have number (field : SettingField) (numeric : field.isNumeric = true) :
      (live.get field).exposed = built.get field ∧ (live.get field).exposed.IsNumber := by
    obtain ⟨same, number⟩ := (readField_numeric_iff numeric).mp (read field)
    exact ⟨same, same ▸ number⟩
  have ordered := guarded.band (.inr ⟨(number .decibelMin rfl).2.isSome_number?,
    (number .decibelMax rfl).2.isSome_number?⟩)
  have sound := valid_iff.mp (guarded.rest _ _ ordered)
  have same (field : SettingField) (numeric : field.isNumeric = true) :
      built.get field = live.get field := by
    have outlined : (live.outline live.decibelMin live.decibelMax).get field = live.get field := by
      cases field with
      | alert | steps => cases numeric
      | _ => rfl
    rw [← (number field numeric).1, ← outlined]
    exact sound.exposed numeric
  have bounds : built.strengthBounds = live.strengthBounds :=
    strengthBounds_of_same fun field member => same field (strengthFields_isNumeric field member)
  refine guarded.valid_of_steps ordered fun which => ?_
  obtain ⟨steps, isSteps, _⟩ := guarded.steps which
  obtain ⟨others, isOthers, accepted⟩ := (valid_iff.mp valid).steps which
  have isBuilt : built.sequence which = stepsValue steps :=
    ((readField_steps_iff isSteps).mp (read (.steps which))).2
  rw [isBuilt, stepsValue, Value.items?_list, ← isSteps] at isOthers
  rw [bounds] at accepted
  exact ⟨others, isOthers, accepted⟩

/-- An update without changes succeeds only if the configuration in force is valid. -/
theorem Guarded.valid_of_renewal (guarded : live.Guarded)
    (renewed : (Mutation.renewal.attempt live).result = .ok built) : live.Valid := by
  simp only [result_renewal, ↓check_eq_ok_iff, bind_eq_ok_iff, pure_eq_ok_iff] at renewed
  obtain ⟨_, isBuilt, valid, rfl⟩ := renewed
  exact guarded.valid_of_build isBuilt valid

/-- It is valid, if coercible, unless a list stands inside one of its steps. -/
theorem Guarded.valid_of_coercible (guarded : live.Guarded) (coercible : live.Coercible)
    (clear : ∀ which position, live.sharing.isClear which position = true) : live.Valid := by
  have number (field : SettingField) (numeric : field.isNumeric = true) :
      (live.get field).exposed.IsNumber := by
    obtain ⟨n, admitted, isNumber⟩ := coercible.numbers field numeric
    rw [isNumber, Value.exposed_ofNumber]
    exact ⟨n, admitted, rfl⟩
  exact guarded.valid_of_numbers (number .decibelMin rfl).isSome_number?
    (number .decibelMax rfl).isSome_number? clear

/-- An update without changes is accepted if the configuration in force is coercible and valid, -/
theorem Guarded.renewal_accepted_iff (guarded : live.Guarded) :
    (Mutation.renewal.attempt live).outcome = .ok () ↔ live.Coercible ∧ live.Valid := by
  constructor
  · intro accepted
    have valid := guarded.valid_of_renewal (Attempt.result_eq_ok_iff.mpr ⟨accepted, rfl⟩)
    exact ⟨(valid_iff.mp valid).renewal_accepted_iff.mp accepted, valid⟩
  · rintro ⟨coercible, valid⟩
    exact (valid_iff.mp valid).renewal_accepted_iff.mpr coercible

/-- and leaves its contents as they are if moreover the steps are in lists. -/
theorem Guarded.renewal_unchanged_iff (guarded : live.Guarded) :
    (Mutation.renewal.attempt live).result = .ok live.unshared ↔
      (live.Coercible ∧ live.Valid) ∧ ∀ which, ∃ items, live.sequence which = .list items := by
  constructor
  · intro renewed
    have valid := guarded.valid_of_renewal renewed
    obtain ⟨coercible, lists⟩ := (valid_iff.mp valid).renewal_unchanged_iff.mp renewed
    exact ⟨⟨coercible, valid⟩, lists⟩
  · rintro ⟨⟨coercible, valid⟩, lists⟩
    exact (valid_iff.mp valid).renewal_unchanged_iff.mpr ⟨coercible, lists⟩

theorem Canonical.coercible (canonical : live.Canonical) : live.Coercible := by
  refine ⟨fun field numeric => canonical.isNumber numeric, fun which => ?_⟩
  obtain ⟨steps, isSteps, _⟩ := canonical.steps which
  rw [isSteps]
  exact ⟨_, rfl⟩

end Settings

namespace Machine

variable {κ μ ν : Type} {behave : κ → Settings → Script κ μ ν} {m : Machine κ μ ν}

/-- Whatever a store was given, an update without changes is accepted exactly if all numeric fields of
the configuration in force hold numbers that a field takes, its steps are in lists or tuples, and it is
valid, which it is anyway unless a list stands inside one of its steps. It leaves the contents of that
configuration as they are, in lists of its own, exactly if moreover the steps are in lists. -/
theorem Reachable.renews_iff (reachable : m.Reachable behave) :
    ((Mutation.renewal.attempt m.world.store.live).outcome = .ok () ↔
        Settings.Coercible m.world.store.live ∧ Settings.Valid m.world.store.live) ∧
      ((Mutation.renewal.attempt m.world.store.live).result =
          .ok (Settings.unshared m.world.store.live) ↔
        (Settings.Coercible m.world.store.live ∧ Settings.Valid m.world.store.live) ∧
          ∀ which, ∃ items, m.world.store.live.sequence which = .list items) ∧
      ((∀ which position, m.world.store.live.sharing.isClear which position = true) →
        Settings.Coercible m.world.store.live → Settings.Valid m.world.store.live) := by
  have guarded := reachable.coherent.live
  exact ⟨guarded.renewal_accepted_iff, guarded.renewal_unchanged_iff,
    fun clear coercible => guarded.valid_of_coercible coercible clear⟩

/-- An update without changes leaves a store with one beep as it is. -/
theorem renews_beeped : (Mutation.renewal.attempt beeped.world.store.live).result =
    .ok beeped.world.store.live := by
  have reachable := beeped_course.reachable beeping_fresh.reachable
  have canonical := beeped_course.canonical beeping_fresh trivial fun _ allowed => allowed
  have lists (which : Sequence) : ∃ items, beeped.world.store.live.sequence which = .list items := by
    obtain ⟨steps, isSteps, _⟩ := canonical.steps which
    exact ⟨_, isSteps⟩
  obtain ⟨_, unchanged, valid⟩ := reachable.renews_iff
  have clear (which : Sequence) (position : Nat) :
      beeped.world.store.live.sharing.isClear which position = true :=
    Sharing.isClear_of_isApart canonical.isApart position
  have renewed := unchanged.mpr ⟨⟨canonical.coercible, valid clear canonical.coercible⟩, lists⟩
  rwa [Settings.unshared_of_alone canonical.alone] at renewed

/-- A store that is started with a boundless greatest period refuses to be updated. -/
theorem renewal_refused_boundless :
    let boundless : Settings := { Settings.defaults with idleMax := .float (.infinite false) }
    let m : Machine Hearer Unit Unit :=
      start ⟨.ofSettings boundless, .empty [], none, (), [.logged .passed]⟩ .done
    m.Fresh (.settings boundless) ∧ (Mutation.renewal.attempt m.world.store.live).outcome =
      .error (.invalid (.notFinite "idle_period_max_ms" (.float (.infinite false)))) := by
  intro boundless m
  have valid : boundless.Valid := by decide +kernel
  have started : Store.start (.settings boundless) = .ok (Store.ofSettings (κ := Hearer) boundless) := by
    rw [Store.start, valid]
    rfl
  have first : readField .idleMin boundless.idleMin = .ok boundless.idleMin :=
    (Settings.defaults_canonical.holds .idleMin).read
  have second : readField .idleMax boundless.idleMax =
      .error (.invalid (.notFinite "idle_period_max_ms" (.float (.infinite false)))) := rfl
  have refused : Settings.build boundless =
      .error (.invalid (.notFinite "idle_period_max_ms" (.float (.infinite false)))) := by
    rw [Settings.build, first, second]
    rfl
  refine ⟨.of started _ none () _, Attempt.result_eq_error_iff.mp ?_⟩
  change (Mutation.renewal.attempt boundless).result = _
  rw [Settings.result_renewal, refused]
  rfl

end Machine

end TrainingCollar
