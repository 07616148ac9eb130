import TrainingCollar.Proofs.Causes
import TrainingCollar.Proofs.Store.Provenance
import TrainingCollar.Proofs.Store.Trace

/-! # Editing steps

A step can be added or removed on its own, or the whole sequence can be given anew with that step in
it or without. The first checks at most the step, in the configuration in force; the second coerces
and validates everything again. On a canonical and valid configuration both come to the same, since
coercion changes nothing there and only the new step can fail a check.
-/

namespace TrainingCollar

/-- The configuration that an attempt puts in force. -/
def Attempt.result (a : Attempt) : Except Fault Settings := a.outcome.map fun () => a.live

namespace Attempt

variable {live changed : Settings}

@[simp] theorem result_rejected (warning : Fault → String) (fault : Fault) :
    (rejected live warning fault).result = .error fault := by
  rw [result, outcome_rejected]
  rfl

theorem result_edited (record : String → String) {step : Step} (shaped : step.Shaped) :
    (edited changed record step.brief).result = step.written.map fun () => changed := by
  rw [result, outcome_edited record shaped, Attempt.live_edited]

theorem result_eq_ok_iff {a : Attempt} :
    a.result = .ok changed ↔ a.outcome = .ok () ∧ a.live = changed := by
  unfold result
  rw [map_eq_ok_iff]
  exact ⟨fun ⟨(), done, same⟩ => ⟨done, same⟩, fun ⟨done, same⟩ => ⟨(), done, same⟩⟩

theorem result_eq_error_iff {a : Attempt} {fault : Fault} :
    a.result = .error fault ↔ a.outcome = .error fault := by
  unfold result
  cases a.outcome <;> simp [Except.map]

end Attempt

/-- Appending a step to a sequence. -/
def Mutation.addTo (which : Sequence) (step : Value) : Mutation := .add (.text which.name) step

/-- Removing the step at a position of a sequence. -/
def Mutation.removeFrom (which : Sequence) (position : Nat) : Mutation :=
  .remove (.text which.name) (.int position)

/-- Giving a sequence anew. -/
def Mutation.give (which : Sequence) (items : List Value) : Mutation :=
  .update (.map [(.text which.name, .list items)]) []

/-! ## Reading and checking one more step -/

/-- Steps that stand before other items are read as they are. -/
theorem readStepsFrom_append (name : String) (index : Nat) (steps : List Step) (items : List Value) :
    readStepsFrom name index (steps.map .step ++ items) =
      (readStepsFrom name (index + steps.length) items).map (steps ++ ·) := by
  induction steps generalizing index with
  | nil =>
    change readStepsFrom name index items = (readStepsFrom name index items).map id
    cases readStepsFrom name index items <;> rfl
  | cons step rest ih =>
    have reads : readStepsFrom name index (.step step :: (rest.map .step ++ items)) =
        (readStepsFrom name (index + 1) (rest.map .step ++ items)).map (step :: ·) := rfl
    rw [List.map_cons, List.cons_append, reads, ih, List.length_cons, Nat.add_assoc,
      Nat.add_comm 1]
    cases readStepsFrom name (index + (rest.length + 1)) items <;> rfl

/-- What is read from a value as a step, if one is, can be written about. -/
def Value.IsWritable (x : Value) : Prop := ∀ step, Step.read x = .ok step → step.isWritable = true

/-- This is so unless the value is a step itself that is not built. -/
theorem Value.IsWritable.of_built {x : Value}
    (built : ∀ step, x.exposed = .step step → Step.Built step) : x.IsWritable := by
  intro step read
  unfold Step.read at read
  split at read
  · next isStep =>
    cases read
    exact (Step.built_iff.mp (built step isStep)).isWritable
  · exact (Step.canonical_of_ofEntries read).isWritable
  · cases read

theorem Value.isWritable_of_read {x : Value} {step : Step} (read : Step.read x = .ok step) :
    x.IsWritable ↔ step.isWritable = true := by
  refine ⟨fun writable => writable step read, fun writable other readOther => ?_⟩
  cases read.symm.trans readOther
  exact writable

namespace Settings

variable {live : Settings}

/-- Behind accepted steps, a check goes on with what follows them. -/
theorem validateSteps_append (name : String) (index : Nat) {steps : List Step}
    (accepted : ∀ step ∈ steps, step.Accepted live.strengthBounds) (items : List Value) :
    live.validateSteps name index (steps.map .step ++ items) =
      live.validateSteps name (index + steps.length) items := by
  induction steps generalizing index with
  | nil => rfl
  | cons step rest ih =>
    obtain ⟨first, others⟩ := List.forall_mem_cons.mp accepted
    have passes : validateStep step (fun kind => .ok (live.strengthBounds kind))
        (Violation.label name index) = .ok () := validateStep_eq_ok_iff.mpr first
    rw [List.map_cons, List.cons_append, validateSteps, stepOf]
    change (validateStep step _ _ >>= fun _ => _) = _
    rw [passes]
    change live.validateSteps name (index + 1) _ = _
    rw [ih (index + 1) others, List.length_cons, Nat.add_assoc, Nat.add_comm 1]

/-- What a check of one sequence finds does not depend on the other. -/
theorem validateSequence_set_of_ne {which other : Sequence} (apart : other ≠ which)
    (valid : live.Valid) (content : Value) :
    validateSequence (live.set (.steps which) content) other = .ok () := by
  obtain ⟨steps, isSteps, accepted⟩ := (valid_iff.mp valid).steps other
  refine validateSequence_eq_ok_iff.mpr ⟨steps, ?_, ?_⟩
  · rw [sequence_set_steps, if_neg apart, isSteps]
  · rw [strengthBounds_set_steps]
    exact accepted

/-- When only a sequence of a valid configuration is replaced, only this sequence is in question. -/
theorem validate_set_steps (valid : live.Valid) (which : Sequence) (content : Value) :
    validate (live.set (.steps which) content) =
      validateSequence (live.set (.steps which) content) which := by
  have passes := valid
  simp only [Valid, validate, check_eq_ok_iff] at passes
  obtain ⟨pairs, periods, strengths, microphone, alert, _⟩ := passes
  let changed := live.set (.steps which) content
  have samePairs : checkAll (validatePair changed) orderedPairs = .ok () := by
    cases which <;> exact pairs
  have samePeriods : checkAll (validatePeriod changed) periodFields = .ok () := by
    cases which <;> exact periods
  have sameStrengths : checkAll (validateStrength changed) strengthFields = .ok () := by
    cases which <;> exact strengths
  have sameMicrophone : validateMicrophone changed = .ok () := by
    cases which <;> exact microphone
  have sameAlert : validateAlert changed = .ok () := by
    cases which <;> exact alert
  have sequences : validate changed = checkAll (validateSequence changed) Sequence.all := by
    rw [validate, samePairs, samePeriods, sameStrengths, sameMicrophone, sameAlert]
    rfl
  rw [sequences, Sequence.all, checkAll, checkAll, checkAll]
  cases which with
  | corrections =>
    rw [validateSequence_set_of_ne (by decide : Sequence.affirmations ≠ .corrections) valid]
    change (validateSequence changed .corrections >>= fun _ => .ok ()) = _
    cases validateSequence changed .corrections <;> rfl
  | affirmations =>
    rw [validateSequence_set_of_ne (by decide : Sequence.corrections ≠ .affirmations) valid]
    change (validateSequence changed .affirmations >>= fun _ => .ok ()) = _
    cases validateSequence changed .affirmations <;> rfl

/-! ## Attempts on canonical configurations -/

variable {which : Sequence} {steps : List Step}

/-- A canonical configuration stays as it is when other steps are put in and everything is coerced
again. -/
theorem build_set_steps (canonical : live.Canonical) (which : Sequence) (steps : List Step) :
    build (live.set (.steps which) (stepsValue steps)) =
      .ok (live.set (.steps which) (stepsValue steps)) := by
  refine build_eq_ok_iff.mpr ⟨fun field => ?_, (SettingsOf.sharing_set ..).trans canonical.alone⟩
  by_cases same : field = .steps which
  · rw [same, SettingsOf.get_set_self]
    exact readField_stepsValue which steps
  · rw [SettingsOf.get_set_of_ne _ _ same]
    exact (canonical.holds field).read

theorem readFields_steps (which : Sequence) (content : Value) :
    readFields (.map [(.text which.name, content)]) =
      (readSteps which.name content).map fun steps => [(.steps which, stepsValue steps)] := by
  have named : SettingField.ofName? which.name = some (.steps which) :=
    SettingField.ofName?_name (.steps which)
  have known : (([(Value.text which.name, content)].map Prod.fst).filter
      fun key => !isField key) = [] := by
    cases which <;> rfl
  simp only [readFields, Value.entries?_map, known, readEntries, named, readField]
  cases readSteps which.name content <;> rfl

/-- What merging comes to decides about an update. -/
theorem result_update (live : Settings) (changes : Value) (fields : List (String × Value)) :
    ((Mutation.update changes fields).attempt live).result = (do
      let entries ← entriesOf changes
      let merged ← live.merged (fields.foldl (fun entries (name, value) =>
        Value.insert entries (.text name) value) entries)
      return merged.2) := by
  rw [Mutation.attempt, attemptUpdate]
  cases entriesOf changes with
  | error fault => rfl
  | ok entries =>
    simp only [bind, Except.bind]
    generalize fields.foldl (fun entries (name, value) => Value.insert entries (.text name) value)
      entries = entries
    cases isMerged : live.merged entries with
    | ok merged => rfl
    | error fault =>
      dsimp only
      split
      · exact Attempt.result_rejected ..
      · next unlisted =>
        -- Keys that cannot be listed are not read either, which is the fault already.
        obtain ⟨key, among, noText⟩ := allTexts?_eq_none_iff.mp unlisted
        obtain ⟨entry, member, rfl⟩ := List.mem_map.mp among
        have unread := readFields_odd fun texts : Value.TextKeys entries => noText (texts entry member)
        rw [merged, unread] at isMerged
        cases isMerged
        rfl

/-- Giving a sequence anew puts it in force if its items are steps and it passes the checks. -/
theorem result_give (canonical : live.Canonical) (which : Sequence) (items : List Value) :
    ((Mutation.give which items).attempt live).result = (do
      let steps ← readSteps which.name (.list items)
      let changed := live.set (.steps which) (stepsValue steps)
      validate changed
      return changed) := by
  have entries : entriesOf (.map [(.text which.name, .list items)]) =
      .ok [(.text which.name, .list items)] := rfl
  rw [Mutation.give, result_update, entries]
  change (live.merged [(.text which.name, .list items)] >>= fun merged => pure merged.2) = _
  rw [merged, readFields_steps]
  cases readSteps which.name (.list items) with
  | error fault => rfl
  | ok steps =>
    change ((build (live.set (.steps which) (stepsValue steps)) >>= fun candidate => _) >>= _) = _
    rw [build_set_steps canonical]
    simp only [bind, Except.bind]
    cases validate (live.set (.steps which) (stepsValue steps)) <;> rfl

/-! ## One step and the whole sequence -/

theorem sequenceOf_name (which : Sequence) : sequenceOf (.text which.name) = .ok which := by
  cases which <;> simp [sequenceOf, Sequence.all, Sequence.name, Value.same]

/-- The steps that a sequence holds have been accepted. -/
theorem Valid.accepted_of_holds (valid : live.Valid)
    (holds : live.sequence which = stepsValue steps) :
    ∀ step ∈ steps, step.Accepted live.strengthBounds := by
  obtain ⟨others, isSteps, accepted⟩ := (valid_iff.mp valid).steps which
  have same : stepsValue steps = stepsValue others := by
    rw [holds] at isSteps
    exact congrArg Value.list (Option.some.inj isSteps)
  rw [stepsValue_injective same]
  exact accepted

/-- A step that is read passes, behind the steps of a valid configuration, if it passes on its own. -/
theorem validate_snoc (valid : live.Valid) (holds : live.sequence which = stepsValue steps)
    (step : Step) :
    validate (live.set (.steps which) (stepsValue (steps ++ [step]))) =
      validateStep step (fun kind => .ok (live.strengthBounds kind))
        (Violation.label which.name steps.length) := by
  have accepted := valid.accepted_of_holds holds
  let changed := live.set (.steps which) (stepsValue (steps ++ [step]))
  have bounds : strengthBounds changed = live.strengthBounds := strengthBounds_set_steps which _
  have stillAccepted : ∀ step ∈ steps, step.Accepted (strengthBounds changed) := by
    rw [bounds]
    exact accepted
  have all : validateSequence changed which =
      validateSteps changed which.name 0 (steps.map .step ++ [.step step]) := by
    rw [validateSequence, sequence_set_steps, if_pos rfl, stepsValue, List.map_append]
    rfl
  rw [validate_set_steps valid, all, validateSteps_append which.name 0 stillAccepted, Nat.zero_add]
  change (validateStep step (fun kind => .ok (strengthBounds changed kind)) _ >>= fun _ => .ok ()) = _
  rw [bounds]
  cases validateStep step (fun kind => .ok (live.strengthBounds kind))
    (Violation.label which.name steps.length) <;> rfl

/-- A step that passes its check is put in force behind the others, and then written about. -/
theorem attemptAdd_of_holds (alone : live.sharing = .none) (holds : live.sequence which = stepsValue steps)
    {key x : Value} (named : sequenceOf key = .ok which) {step : Step} (isRead : Step.read x = .ok step)
    (accepted : step.Accepted live.strengthBounds) :
    ∃ record, live.attemptAdd key x =
      .edited (live.set (.steps which) (stepsValue (steps ++ [step]))) record step.brief := by
  have added := attemptAdd_of_list named holds isRead accepted
  rw [withList_of_alone alone] at added
  rw [stepsValue, List.map_append, List.map_singleton]
  exact ⟨_, added⟩

/-- What adding a step comes to. -/
theorem result_addTo (alone : live.sharing = .none) (holds : live.sequence which = stepsValue steps)
    (x : Value) :
    ((Mutation.addTo which x).attempt live).result = (do
      let step ← Step.read x
      validateStep step (fun kind => .ok (live.strengthBounds kind))
        (Violation.label which.name steps.length)
      step.written
      return live.set (.steps which) (stepsValue (steps ++ [step]))) := by
  have named := sequenceOf_name which
  rw [Mutation.addTo, Mutation.attempt]
  cases isRead : Step.read x with
  | error fault =>
    rw [attemptAdd_of_unread named isRead]
    rfl
  | ok step =>
    simp only [bind, Except.bind, pure, Except.pure]
    cases checked : validateStep step (fun kind => .ok (live.strengthBounds kind))
        (Violation.label which.name steps.length) with
    | error fault =>
      rw [attemptAdd_of_refused named holds isRead (by rwa [List.length_map])]
      exact Attempt.result_rejected ..
    | ok passed =>
      have accepted := validateStep_eq_ok_iff.mp checked
      obtain ⟨record, added⟩ := attemptAdd_of_holds alone holds named isRead accepted
      rw [added, Attempt.result_edited record accepted.shaped]
      cases step.written <;> rfl

/-- Giving a sequence anew with one more item comes to the check of that item alone. -/
theorem result_give_snoc (canonical : live.Canonical) (which : Sequence) (steps : List Step)
    (x : Value) :
    ((Mutation.give which (steps.map .step ++ [x])).attempt live).result = (do
      let others ← readStepsFrom which.name steps.length [x]
      let changed := live.set (.steps which) (stepsValue (steps ++ others))
      validate changed
      return changed) := by
  have read : readSteps which.name (.list (steps.map .step ++ [x])) =
      (readStepsFrom which.name steps.length [x]).map (steps ++ ·) := by
    have all := readStepsFrom_append which.name 0 steps [x]
    rw [Nat.zero_add] at all
    exact all
  rw [result_give canonical, read]
  cases readStepsFrom which.name steps.length [x] <;> rfl

/-- The step at the position that an index names is taken out, and then written about. -/
theorem attemptRemove_of_holds (alone : live.sharing = .none)
    (holds : live.sequence which = stepsValue steps) {key index : Value}
    (named : sequenceOf key = .ok which) {position : Nat} (inRange : position < steps.length)
    (found : positionOf which.name index steps.length = .ok position) :
    ∃ record, live.attemptRemove key index =
      .edited (live.set (.steps which) (stepsValue (steps.eraseIdx position))) record
        steps[position].brief := by
  have there : (steps.map Value.step)[position]? = some (.step steps[position]) := by
    simp [inRange]
  have removed := attemptRemove_of_list named holds (by rwa [List.length_map]) there
  rw [withList_of_alone alone, Edit.items, List.eraseIdx_map] at removed
  exact ⟨_, removed⟩

theorem positionOf_of_lt (name : String) {position size : Nat} (inRange : position < size) :
    positionOf name (.int position) size = .ok position := by
  have bounds : (0 : Int) ≤ position ∧ (position : Int) < size := by omega
  exact if_pos bounds

/-- Removing a step takes it out, and ends with writing about it. -/
theorem removeFrom_eq (valid : live.Valid) (alone : live.sharing = .none)
    (holds : live.sequence which = stepsValue steps) {position : Nat}
    (inRange : position < steps.length) :
    let attempt := (Mutation.removeFrom which position).attempt live
    attempt.live = live.set (.steps which) (stepsValue (steps.eraseIdx position)) ∧
      attempt.outcome = steps[position].written := by
  obtain ⟨record, removed⟩ := attemptRemove_of_holds alone holds (sequenceOf_name which) inRange
    (positionOf_of_lt which.name inRange)
  have shaped := (valid.accepted_of_holds holds _ (List.getElem_mem inRange)).shaped
  dsimp only
  rw [Mutation.removeFrom, Mutation.attempt, removed]
  exact ⟨Attempt.live_edited .., Attempt.outcome_edited record shaped⟩

/-- Giving a sequence anew without one of its steps always succeeds. -/
theorem result_give_eraseIdx (valid : live.Valid) (canonical : live.Canonical)
    (holds : live.sequence which = stepsValue steps) (position : Nat) :
    ((Mutation.give which ((steps.map .step).eraseIdx position)).attempt live).result =
      .ok (live.set (.steps which) (stepsValue (steps.eraseIdx position))) := by
  have sound := valid_iff.mp valid
  have accepted := valid.accepted_of_holds holds
  have remaining : ∀ step ∈ steps.eraseIdx position, step.Accepted live.strengthBounds :=
    fun step member => accepted step (List.mem_of_mem_eraseIdx member)
  have passes : validate (live.set (.steps which) (stepsValue (steps.eraseIdx position))) = .ok () :=
    valid_iff.mpr (sound.set_steps which remaining)
  have read : readSteps which.name (.list ((steps.eraseIdx position).map .step)) =
      .ok (steps.eraseIdx position) := readStepsFrom_steps which.name 0 _
  rw [result_give canonical, List.eraseIdx_map, read]
  change (validate _ >>= fun _ => _) = _
  rw [passes]
  rfl

/-- What cannot be read as a step is neither added nor put in a sequence. -/
theorem result_of_unread (canonical : live.Canonical) (holds : live.sequence which = stepsValue steps)
    {x : Value} {fault : Fault} (unread : Step.read x = .error fault) (changed : Settings) :
    ((Mutation.addTo which x).attempt live).result ≠ .ok changed ∧
      ((Mutation.give which (steps.map .step ++ [x])).attempt live).result ≠ .ok changed := by
  have unlisted : ∃ other, readStepsFrom which.name steps.length [x] = .error other := by
    rw [readStepsFrom, unread]
    cases fault <;> exact ⟨_, rfl⟩
  obtain ⟨other, unlisted⟩ := unlisted
  rw [result_addTo canonical.alone holds, result_give_snoc canonical, unread, unlisted]
  constructor
  · intro added
    cases added
  · intro given
    cases given

/-- What is read as a step passes the same checks both ways, but adding it ends with writing about it. -/
theorem result_addTo_of_read (valid : live.Valid) (canonical : live.Canonical)
    (holds : live.sequence which = stepsValue steps) {x : Value} {step : Step}
    (read : Step.read x = .ok step) :
    ((Mutation.addTo which x).attempt live).result = (do
      let changed ← ((Mutation.give which (steps.map .step ++ [x])).attempt live).result
      step.written
      return changed) := by
  have others : readStepsFrom which.name steps.length [x] = .ok [step] := by
    rw [readStepsFrom, read]
    rfl
  rw [result_addTo canonical.alone holds, result_give_snoc canonical, read, others]
  change (validateStep step _ _ >>= fun _ => _) = ((validate _ >>= fun _ => _) >>= fun _ => _)
  rw [validate_snoc valid holds]
  cases validateStep step (fun kind => .ok (live.strengthBounds kind))
    (Violation.label which.name steps.length) <;> rfl

/-- If giving the sequence with it succeeds, the step is in force once it was tried to add it. -/
theorem live_addTo_of_give (valid : live.Valid) (canonical : live.Canonical)
    (holds : live.sequence which = stepsValue steps) {x : Value} {step : Step}
    (read : Step.read x = .ok step) {changed : Settings}
    (gives : ((Mutation.give which (steps.map .step ++ [x])).attempt live).result = .ok changed) :
    ((Mutation.addTo which x).attempt live).live = changed := by
  have others : readStepsFrom which.name steps.length [x] = .ok [step] := by
    rw [readStepsFrom, read]
    rfl
  rw [result_give_snoc canonical, others] at gives
  change (validate _ >>= fun _ => _) = _ at gives
  rw [validate_snoc valid holds] at gives
  simp only [bind_eq_ok_iff, pure_eq_ok_iff] at gives
  obtain ⟨_, passed, rfl⟩ := gives
  obtain ⟨record, added⟩ := attemptAdd_of_holds canonical.alone holds (sequenceOf_name which) read
    (validateStep_eq_ok_iff.mp passed)
  rw [Mutation.addTo, Mutation.attempt, added]
  exact Attempt.live_edited ..

/-- Both ways are accepted at once, unless the step cannot be written about. -/
theorem result_addTo_eq_ok_iff (valid : live.Valid) (canonical : live.Canonical)
    (holds : live.sequence which = stepsValue steps) (x : Value) (changed : Settings) :
    ((Mutation.addTo which x).attempt live).result = .ok changed ↔
      ((Mutation.give which (steps.map .step ++ [x])).attempt live).result = .ok changed ∧
        x.IsWritable := by
  cases read : Step.read x with
  | error fault =>
    obtain ⟨notAdded, notGiven⟩ := result_of_unread canonical holds read changed
    exact iff_of_false notAdded fun given => notGiven given.1
  | ok step =>
    rw [result_addTo_of_read valid canonical holds read, Value.isWritable_of_read read]
    cases ((Mutation.give which (steps.map .step ++ [x])).attempt live).result with
    | error fault => exact iff_of_false nofun fun given => nomatch given.1
    | ok given =>
      cases writable : step.isWritable <;> simp [Step.written, writable, bind, Except.bind, pure,
        Except.pure]

/-- Violations are found before the step is written about. -/
theorem result_addTo_eq_invalid_iff (valid : live.Valid) (canonical : live.Canonical)
    (holds : live.sequence which = stepsValue steps) (step : Step) (violation : Violation) :
    ((Mutation.addTo which (.step step)).attempt live).result = .error (.invalid violation) ↔
      ((Mutation.give which (steps.map .step ++ [.step step])).attempt live).result =
        .error (.invalid violation) := by
  have read : Step.read (.step step) = .ok step := rfl
  rw [result_addTo_of_read valid canonical holds read]
  cases ((Mutation.give which (steps.map .step ++ [.step step])).attempt live).result with
  | error fault => exact Iff.rfl
  | ok given =>
    refine iff_of_false ?_ nofun
    unfold Step.written
    cases step.isWritable <;> nofun

end Settings

/-! ## Runs -/

variable {κ μ ν : Type}

namespace Machine

variable {behave : κ → Settings → Script κ μ ν} {first m : Machine κ μ ν}

/-- The machine that asks for a mutation next and goes on with the answer. -/
def asks (m : Machine κ μ ν) (mutation : Mutation) (answer : Option Fault → Script κ μ ν) :
    Machine κ μ ν :=
  { m with control := .run (.mutate mutation answer) }

/-- The mutation would be accepted and put a configuration in force. -/
def Puts (m : Machine κ μ ν) (mutation : Mutation) (changed : Settings) : Prop :=
  (mutation.attempt m.world.store.live).outcome = .ok () ∧
    (mutation.attempt m.world.store.live).live = changed

/-- The mutation would be rejected because of a violation. -/
def Refuses (m : Machine κ μ ν) (mutation : Mutation) (violation : Violation) : Prop :=
  (mutation.attempt m.world.store.live).outcome = .error (.invalid violation)

/-- It makes no difference which of two mutations is asked for next: the same happens afterwards for
all who hear of changes, and the machines differ in their traces only. -/
def Interchangeable (behave : κ → Settings → Script κ μ ν) (m : Machine κ μ ν) (a b : Mutation) :
    Prop :=
  ∀ answer steps,
    (m.asks b answer).history behave steps = (m.asks a answer).history behave steps ∧
      ((m.asks a answer).run behave (steps + 1)).Alike ((m.asks b answer).run behave (steps + 1))

/-- Mutations that put the same configuration in force are interchangeable. -/
theorem interchangeable {a b : Mutation} {changed : Settings} (first : m.Puts a changed)
    (second : m.Puts b changed) : m.Interchangeable behave a b := by
  intro answer steps
  have start : m.Alike m := ⟨m.world.trace, rfl⟩
  have outcome := second.1.trans first.1.symm
  have live := second.2.trans first.2.symm
  have after : ((m.asks a answer).step behave).Alike ((m.asks b answer).step behave) :=
    start.settle live outcome answer
  have happens : (m.asks b answer).happening? = (m.asks a answer).happening? := by
    change ((b.attempt m.world.store.live).happening? m.world.store.live : Option (Happening κ)) =
      (a.attempt m.world.store.live).happening? m.world.store.live
    rw [Attempt.happening?, Attempt.happening?, Attempt.recounts, Attempt.recounts, outcome, live]
  refine ⟨?_, ?_⟩
  · cases steps with
    | zero => rfl
    | succ steps => rw [history, history, happens, (after.run steps).1]
  · rw [run_succ, run_succ]
    exact (after.run steps).2

/-- Where all steps and configurations are built: adding anything as a step is accepted if and only
if the update to the sequence with it is, and the step can be written about. This is so for steps that are
built themselves and for all mappings; with any other step, adding it fails at the end, when it is in force.
Removing a step and the update to the sequence without it are always accepted. When both ways are accepted
it makes no difference which of both is asked for. A step that violates an invariant violates it in the
same way both ways. -/
theorem Course.edits_agree {initial : Value} (fresh : first.Fresh initial)
    (genuine : initial.Genuine) (course : Course behave Genuine first m) (which : Sequence) :
    ∃ items, m.world.store.live.sequence which = .list items ∧
      (∀ (x : Value) (changed : Settings), m.Puts (.addTo which x) changed ↔
        m.Puts (.give which (items ++ [x])) changed ∧ x.IsWritable) ∧
      (∀ x : Value, (∀ step, x.exposed = .step step → Step.Built step) → x.IsWritable) ∧
      (∀ (x : Value) (changed : Settings), m.Puts (.give which (items ++ [x])) changed →
        ¬ x.IsWritable →
        ((Mutation.addTo which x).attempt m.world.store.live).outcome = .error .badValue ∧
          ((Mutation.addTo which x).attempt m.world.store.live).live = changed) ∧
      (∀ (x : Value) (changed : Settings), m.Puts (.addTo which x) changed →
        m.Interchangeable behave (.addTo which x) (.give which (items ++ [x]))) ∧
      (∀ (step : Step) (violation : Violation), m.Refuses (.addTo which (.step step)) violation ↔
        m.Refuses (.give which (items ++ [.step step])) violation) ∧
      ∀ position < items.length, ∃ changed, m.Puts (.removeFrom which position) changed ∧
        m.Puts (.give which (items.eraseIdx position)) changed ∧
          m.Interchangeable behave (.removeFrom which position)
            (.give which (items.eraseIdx position)) := by
  have canonical := course.canonical fresh genuine fun _ permitted => permitted
  have valid : m.world.store.live.Valid :=
    (course.reachable fresh.reachable).coherent.live.valid canonical.isApart
  obtain ⟨steps, holds, built⟩ := canonical.steps which
  have adds (x : Value) (changed : Settings) : m.Puts (.addTo which x) changed ↔
      m.Puts (.give which (steps.map .step ++ [x])) changed ∧ x.IsWritable := by
    have same := Settings.result_addTo_eq_ok_iff valid canonical holds x changed
    rwa [Attempt.result_eq_ok_iff, Attempt.result_eq_ok_iff] at same
  refine ⟨steps.map .step, holds, adds, fun x => .of_built, ?_, ?_, ?_, ?_⟩
  · intro x changed gives long
    have gives := Attempt.result_eq_ok_iff.mpr gives
    simp only [Value.IsWritable, not_forall] at long
    obtain ⟨step, read, long⟩ := long
    have added := Settings.result_addTo_of_read valid canonical holds read
    rw [gives, Step.written, if_neg long] at added
    exact ⟨Attempt.result_eq_error_iff.mp added,
      Settings.live_addTo_of_give valid canonical holds read gives⟩
  · intro x changed puts
    exact interchangeable puts ((adds x changed).mp puts).1
  · intro step violation
    rw [Refuses, Refuses, ← Attempt.result_eq_error_iff, ← Attempt.result_eq_error_iff]
    exact Settings.result_addTo_eq_invalid_iff valid canonical holds step violation
  · intro position inRange
    rw [List.length_map] at inRange
    obtain ⟨live, outcome⟩ := Settings.removeFrom_eq valid canonical.alone holds inRange
    rw [Step.written, if_pos (built _ (List.getElem_mem inRange)).isWritable] at outcome
    have gives := Attempt.result_eq_ok_iff.mp
      (Settings.result_give_eraseIdx valid canonical holds position)
    exact ⟨_, ⟨outcome, live⟩, gives, interchangeable ⟨outcome, live⟩ gives⟩

/-- A store to which one beep was added: the beep can be removed either way. -/
theorem edits_agree_beep :
    let beeping : Script Hearer Unit Unit :=
      .mutate (.addTo .corrections (.map [(.text "type", .text "collar_beep")])) fun _ => .done
    let m := (start ⟨.ofSettings .defaults, .empty [], none, (), [.logged .passed]⟩ beeping).run
      Hearer.behave 4
    ∃ items, m.world.store.live.sequence .corrections = .list items ∧ items.length = 1 ∧
      m.Interchangeable Hearer.behave (.removeFrom .corrections 0)
        (.give .corrections (items.eraseIdx 0)) := by
  intro beeping m
  have fresh : Fresh .null (start ⟨.ofSettings .defaults, .empty [], none, (), [.logged .passed]⟩
      beeping) := .of Store.start_null _ none () _
  have course : Course Hearer.behave Genuine _ m := .run fun k below mutation tries => by
    rcases k with _ | k
    · cases tries
      exact ⟨⟨trivial, trivial⟩, trivial⟩
    · have quiet : ∀ k < 3, ((start ⟨.ofSettings .defaults, .empty [], none, (), [.logged .passed]⟩
          beeping).run Hearer.behave (k + 1)).tried?.isNone = true := by decide +kernel
      rw [Option.isNone_iff_eq_none.mp (quiet k (Nat.lt_of_succ_lt_succ below))] at tries
      cases tries
  obtain ⟨items, holds, _, _, _, _, _, removes⟩ := course.edits_agree fresh trivial .corrections
  have single : items.length = 1 := by
    have count : (m.world.store.live.sequence .corrections).items?.map List.length = some 1 := by
      decide +kernel
    rw [holds] at count
    exact Option.some.inj count
  obtain ⟨_, _, _, same⟩ := removes 0 (by omega)
  exact ⟨items, holds, single, same⟩

/-- A new store in which the update to the endless beep is accepted. Adding it is not. -/
theorem edits_disagree_endless :
    let m : Machine Hearer Unit Unit :=
      start ⟨.ofSettings .defaults, .empty [], none, (), [.logged .passed]⟩ .done
    m.Fresh .null ∧ m.world.store.live.sequence .corrections = .list [] ∧
      ∃ changed, m.Puts (.give .corrections ([] ++ [.step Hearer.endless])) changed ∧
        ¬ m.Puts (.addTo .corrections (.step Hearer.endless)) changed := by
  intro m
  refine ⟨.of Store.start_null _ none () _, rfl, _, ⟨?_, rfl⟩, ?_⟩
  · have given : ((Mutation.give .corrections ([] ++ [.step Hearer.endless])).attempt
        m.world.store.live).outcome.isOk = true := by decide +kernel
    cases result : ((Mutation.give .corrections ([] ++ [.step Hearer.endless])).attempt
      m.world.store.live).outcome with
    | ok => rfl
    | error fault =>
      rw [result] at given
      cases given
  · rintro ⟨added, _⟩
    have refused : ((Mutation.addTo .corrections (.step Hearer.endless)).attempt
        m.world.store.live).outcome.isOk = false := by decide +kernel
    rw [added] at refused
    cases refused

end Machine

end TrainingCollar
