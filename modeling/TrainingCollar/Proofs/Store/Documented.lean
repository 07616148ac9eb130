import TrainingCollar.Proofs.Causes
import TrainingCollar.Proofs.Store.StepEdits

/-! # What mutations fail with

A caller is told to expect two kinds of faults of a mutation: violations, and positions that do not
exist. `Mutation.failsOnly_attempt` says of any proper mutation of a canonical configuration that
whatever else it fails with is caused by a value that it was given.
-/

namespace TrainingCollar

/-- A fault that a caller is told to expect. -/
def Fault.IsDocumented : Fault → Prop
  | .invalid _ | .badIndex _ => True
  | _ => False

/-- A mapping whose keys are texts. -/
def Value.IsTextMap (v : Value) : Prop := ∃ entries, v.entries? = some entries ∧ TextKeys entries

namespace Mutation

/-- A mutation as callers are asked to make it: names are texts, changes are a mapping, a replacement
is a configuration, and a new step is a step or a mapping. -/
def Proper : Mutation → Prop
  | update changes _ => changes = .null ∨ changes.IsTextMap
  | replace settings => ∃ s, settings = .settings s
  | add key step => key.IsText ∧ ((∃ s, step = .step s) ∨ step.IsTextMap)
  | remove key _ => key.IsText

/-- The values of any kind that a mutation is given: new contents of fields, a step, an index. -/
def given : Mutation → List Value
  | update changes fields => (changes.entries?.getD []).map Prod.snd ++ fields.map Prod.snd
  | replace _ => []
  | add _ step => [step]
  | remove _ index => [index]

/-- The faults that a mutation may come to: those that callers are told to expect, and those that a
value it is given causes. -/
def MayFail (mutation : Mutation) (fault : Fault) : Prop :=
  fault.IsDocumented ∨ ∃ v ∈ mutation.given, v.Causes fault

theorem mayFail_violations (mutation : Mutation) : AllowsViolations mutation.MayFail :=
  fun _ => .inl trivial

end Mutation

namespace Settings

variable {live : Settings}

/-- The entries that an update merges: their keys are texts, and their contents were given. -/
theorem entriesOf_proper {changes : Value} {fields : List (String × Value)}
    (proper : (Mutation.update changes fields).Proper) : ∃ entries, entriesOf changes = .ok entries ∧
      ∀ entry ∈ entries, entry.1.IsText ∧ entry.2 ∈ (Mutation.update changes fields).given := by
  rcases proper with rfl | ⟨entries, isEntries, texts⟩
  · exact ⟨[], rfl, List.forall_mem_nil _⟩
  · unfold entriesOf
    split
    · exact ⟨[], rfl, List.forall_mem_nil _⟩
    · rw [isEntries]
      refine ⟨entries, rfl, fun entry member => ⟨texts entry member, ?_⟩⟩
      rw [Mutation.given, isEntries]
      exact List.mem_append_left _ (List.mem_map_of_mem member)

theorem failsOnly_merged (canonical : live.Canonical) {allowed : Fault → Prop}
    (violations : AllowsViolations allowed) {entries : List (Value × Value)}
    (genuine : Value.EntriesGenuine entries) (texts : Value.TextKeys entries)
    (causes : ∀ entry ∈ entries, ∀ fault, entry.2.Causes fault → allowed fault) :
    FailsOnly allowed (live.merged entries) := by
  have genuineMap : Value.Genuine (.map entries) := genuine
  have contents : FailsOnly allowed (readFields (.map entries)) := by
    apply failsOnly_readFields violations
    · rintro _ ⟨⟩
      exact causes
    · rintro _ ⟨⟩ odd
      exact absurd texts odd
  apply FailsOnly.bind contents
  intro contents read
  have filled := canonical.withFields (holds_of_readFields genuineMap read)
  rw [filled.build]
  apply FailsOnly.bind (.ok _)
  rintro _ ⟨⟩
  apply FailsOnly.bind (filled.failsOnly_validate violations)
  intro _ _
  exact .pure _

theorem failsOnly_attemptUpdate (canonical : live.Canonical) {changes : Value}
    {fields : List (String × Value)} (genuine : (Mutation.update changes fields).Genuine)
    (proper : (Mutation.update changes fields).Proper) :
    FailsOnly (Mutation.update changes fields).MayFail (live.attemptUpdate changes fields).outcome := by
  obtain ⟨changesGenuine, fieldsGenuine⟩ := genuine
  obtain ⟨entries, isEntries, all⟩ := entriesOf_proper proper
  have newGenuine : ∀ field ∈ fields, Value.EntryGenuine (.text field.1, field.2) :=
    fun field member => ⟨trivial, fieldsGenuine field member⟩
  have allGenuine :=
    Value.EntriesGenuine.foldl_insert newGenuine (genuine_of_entriesOf changesGenuine isEntries)
  have new : ∀ field ∈ fields, (Value.text field.1).IsText ∧
      field.2 ∈ (Mutation.update changes fields).given :=
    fun field member => ⟨⟨_, rfl⟩, List.mem_append_right _ (List.mem_map_of_mem member)⟩
  have allGiven := Value.forall_mem_foldl_insert new all
  unfold attemptUpdate
  rw [isEntries]
  dsimp only
  generalize fields.foldl (fun entries field => Value.insert entries (.text field.1) field.2) entries =
    merging at allGenuine allGiven ⊢
  have texts : Value.TextKeys merging := fun entry member => (allGiven entry member).1
  have fails := failsOnly_merged canonical (Mutation.mayFail_violations (.update changes fields))
    allGenuine texts fun entry member fault caused => .inr ⟨_, (allGiven entry member).2, caused⟩
  split
  · exact .ok _
  · next fault failed =>
    split
    · rw [Attempt.outcome_rejected]
      exact .error (fails.allows fault failed)
    · next unlisted =>
      obtain ⟨key, among, noText⟩ := allTexts?_eq_none_iff.mp unlisted
      exact absurd (List.forall_mem_map.mpr texts key among) noText

theorem failsOnly_attemptReplace {replacement : Value} (genuine : replacement.Genuine)
    (proper : (Mutation.replace replacement).Proper) :
    FailsOnly (Mutation.replace replacement).MayFail (live.attemptReplace replacement).outcome := by
  obtain ⟨candidate, rfl⟩ := proper
  have canonical : Settings.Canonical candidate := built_iff.mp genuine
  unfold attemptReplace
  dsimp only
  split
  · exact .ok _
  · next fault failed =>
    rw [Attempt.outcome_rejected]
    exact .error ((canonical.failsOnly_validate (Mutation.mayFail_violations _)).allows fault failed)

theorem failsOnly_sequenceOf {allowed : Fault → Prop} (violations : AllowsViolations allowed)
    (name : String) : FailsOnly allowed (sequenceOf (.text name)) := by
  unfold sequenceOf
  split
  · exact .ok _
  · exact .refuse violations (List.forall_mem_singleton.mpr rfl)

theorem failsOnly_edited {allowed : Fault → Prop} {changed : Settings} {record : String → String}
    {text : Except Fault String} (written : ∃ brief, text = .ok brief) :
    FailsOnly allowed (Attempt.edited changed record text).outcome := by
  obtain ⟨brief, rfl⟩ := written
  exact .ok _

theorem failsOnly_prepareAdd (canonical : live.Canonical) {key step : Value} (isText : key.IsText) :
    FailsOnly (Mutation.add key step).MayFail (live.prepareAdd key step) := by
  obtain ⟨name, rfl⟩ := isText
  apply FailsOnly.bind (failsOnly_sequenceOf (Mutation.mayFail_violations _) name)
  intro which _
  apply FailsOnly.bind ((Step.failsOnly_read step).mono fun fault caused =>
    .inr ⟨step, List.mem_singleton_self step, caused⟩)
  intro read _
  obtain ⟨steps, isItems, _⟩ := canonical.items which
  rw [sizeOfValue_eq_ok_iff.mpr ⟨_, isItems, rfl⟩]
  exact .ok _

theorem failsOnly_attemptAdd (canonical : live.Canonical) {key step : Value}
    (genuine : step.Genuine) (isText : key.IsText) :
    FailsOnly (Mutation.add key step).MayFail (live.attemptAdd key step).outcome := by
  unfold attemptAdd
  split
  · next fault failed => exact .error ((failsOnly_prepareAdd canonical isText).allows fault failed)
  · next prepared =>
    simp only [prepareAdd, bind_eq_ok_iff, pure_eq_ok_iff, Prod.mk.injEq] at prepared
    obtain ⟨which, _, read, isRead, _, _, rfl, rfl, rfl⟩ := prepared
    have readCanonical := Step.canonical_of_read genuine isRead
    have checks (label : String) : FailsOnly (Mutation.add key step).MayFail
        (validateStep read (fun kind => .ok (live.strengthBounds kind)) label) :=
      readCanonical.failsOnly_validate (Mutation.mayFail_violations _)
        (fun _ _ _ => canonical.strengthBounds) label
    dsimp only
    split
    · next fault failed =>
      rw [Attempt.outcome_rejected]
      exact .error ((checks _).allows fault failed)
    · obtain ⟨steps, holds, _⟩ := canonical.steps which
      rw [withSteps_of_list holds]
      exact failsOnly_edited readCanonical.brief

theorem failsOnly_positionOf {allowed : Fault → Prop} (name : String) {index : Value} (size : Nat)
    (positions : ∀ cause, allowed (.badIndex cause))
    (textless : index.hasText = false → allowed .badValue) :
    FailsOnly allowed (positionOf name index size) := by
  unfold positionOf
  split
  · next n =>
    split
    · exact .ok _
    · split
      · exact .error (positions _)
      · next unfit => exact .error (textless (by simpa [Value.hasText] using unfit))
  · split
    · exact .error (positions _)
    · next unfit => exact .error (textless (by simpa using unfit))

theorem failsOnly_prepareRemove (canonical : live.Canonical) {key index : Value}
    (isText : key.IsText) :
    FailsOnly (Mutation.remove key index).MayFail (live.prepareRemove key index) := by
  obtain ⟨name, rfl⟩ := isText
  apply FailsOnly.bind (failsOnly_sequenceOf (Mutation.mayFail_violations _) name)
  intro which _
  obtain ⟨steps, isItems, _⟩ := canonical.items which
  rw [itemsOf_eq_ok_iff.mpr isItems]
  apply FailsOnly.bind (.ok _)
  intro items _
  apply FailsOnly.bind (failsOnly_positionOf which.name items.length (fun _ => .inl trivial) ?_)
  · intro _ _
    exact .pure _
  · intro textless
    exact .inr ⟨index, List.mem_singleton_self index, index, .self, textless⟩

theorem failsOnly_attemptRemove (canonical : live.Canonical) {key index : Value}
    (isText : key.IsText) :
    FailsOnly (Mutation.remove key index).MayFail (live.attemptRemove key index).outcome := by
  unfold attemptRemove
  split
  · next fault failed => exact .error ((failsOnly_prepareRemove canonical isText).allows fault failed)
  · next prepared =>
    simp only [prepareRemove, bind_eq_ok_iff, itemsOf_eq_ok_iff, pure_eq_ok_iff,
      Prod.mk.injEq] at prepared
    obtain ⟨which, _, items, isItems, position, found, rfl, rfl, rfl⟩ := prepared
    obtain ⟨steps, holds, all⟩ := canonical.steps which
    rw [holds] at isItems
    obtain rfl : steps.map .step = items := Option.some.inj isItems
    have bound : position < steps.length := by
      simpa only [List.length_map] using lt_of_positionOf found
    have removed : (steps.map Value.step).getD position .null = .step steps[position] := by
      simp [List.getD_eq_getElem?_getD, bound]
    rw [withSteps_of_list holds, removed]
    exact failsOnly_edited (all _ (List.getElem_mem bound)).brief

end Settings

/-- A proper and genuine mutation of a canonical configuration fails as callers are told, or as a value
that it is given makes it fail. -/
theorem Mutation.failsOnly_attempt {mutation : Mutation} (genuine : mutation.Genuine)
    (proper : mutation.Proper) {live : Settings} (canonical : live.Canonical) :
    FailsOnly mutation.MayFail (mutation.attempt live).outcome := by
  cases mutation with
  | update changes fields => exact Settings.failsOnly_attemptUpdate canonical genuine proper
  | replace settings => exact Settings.failsOnly_attemptReplace genuine proper
  | add key step => exact Settings.failsOnly_attemptAdd canonical genuine proper.1
  | remove key index => exact Settings.failsOnly_attemptRemove canonical proper

/-! ## Other faults do occur -/

namespace Settings

variable {live : Settings}

/-- A far integer as the new content of a numeric field. -/
theorem outcome_update_far (live : Settings) {field : SettingField}
    (numeric : field.isNumeric = true) {n : Int} (far : Binary64.ofInt? n = none) :
    (live.attemptUpdate (.map [(.text field.name, .int n)]) []).outcome = .error .tooLarge := by
  have known : (([(Value.text field.name, Value.int n)].map Prod.fst).filter
      fun key => !isField key) = [] := by
    simp [isField, SettingField.ofName?_name]
  have read : readField field (.int n) = .error .tooLarge := by
    cases field with
    | alert | steps => cases numeric
    | _ => simp [readField, readNumber, Value.exposed, far, Except.map]
  have merged : live.merged [(.text field.name, .int n)] = .error .tooLarge := by
    simp only [Settings.merged, readFields, Value.entries?_map, known, readEntries,
      SettingField.ofName?_name, read]
    rfl
  have entries : entriesOf (.map [(.text field.name, .int n)]) = .ok [(.text field.name, .int n)] := rfl
  simp only [attemptUpdate, entries, List.foldl_nil, merged, List.map_cons, List.map_nil, allTexts?,
    Option.map_some, Attempt.outcome_rejected]

/-- A sequence given anew, first a mapping with a key that is no text. -/
theorem outcome_give_odd (canonical : live.Canonical) (which : Sequence)
    {entries : List (Value × Value)} (odd : ¬Value.TextKeys entries) (rest : List Value) :
    ((Mutation.give which (.map entries :: rest)).attempt live).outcome = .error .wrongKind := by
  have read : readSteps which.name (.list (.map entries :: rest)) = .error .wrongKind := by
    change readStepsFrom which.name 0 (.map entries :: rest) = _
    rw [readStepsFrom, Step.read_odd odd]
  rw [← Attempt.result_eq_error_iff, result_give canonical, read]
  rfl

/-- An index that is too long to be shown, and is no position. -/
theorem outcome_remove_textless (canonical : live.Canonical) (which : Sequence) {index : Value}
    (textless : index.hasText = false) (negative : ∀ n, index = .int n → n < 0) :
    (live.attemptRemove (.text which.name) index).outcome = .error .badValue := by
  obtain ⟨steps, holds, _⟩ := canonical.steps which
  have refused (size : Nat) : positionOf which.name index size = .error .badValue := by
    unfold positionOf
    split
    · next n =>
      have below := negative n rfl
      have unfit : Value.fits n = false := textless
      rw [if_neg (by omega), unfit]
      rfl
    · rw [textless]
      rfl
  rw [attemptRemove_of_misplaced (sequenceOf_name which) holds (refused _)]
  rfl

end Settings

namespace Machine

variable {κ μ ν : Type} {behave : κ → Settings → Script κ μ ν} {first m : Machine κ μ ν}

/-- In any store that only ever was given steps and configurations as they were built, a call that
respects the signatures fails with a violation or for a position that does not exist, unless a value
it is given contains an integer beyond the doubles, a mapping with a key that is no text, or something
that no message can show. -/
theorem Course.fails_as_documented {initial : Value} (fresh : first.Fresh initial)
    (initialGenuine : initial.Genuine) (course : Course behave Genuine first m) {mutation : Mutation}
    (genuine : mutation.Genuine) (proper : mutation.Proper) {fault : Fault}
    (failed : (mutation.attempt m.world.store.live).outcome = .error fault) :
    fault.IsDocumented ∨ ∃ v ∈ mutation.given, v.Causes fault := by
  have canonical := course.canonical fresh initialGenuine fun _ allowed => allowed
  exact (mutation.failsOnly_attempt genuine proper canonical).allows fault failed

/-- A new store to which a beep is about to be added. -/
def beeping : Machine Hearer Unit Unit :=
  start ⟨.ofSettings .defaults, .empty [], none, (), [.logged .passed]⟩
    (.mutate (.addTo .corrections (.map [(.text "type", .text "collar_beep")])) fun _ => .done)

/-- The store with the beep. -/
def beeped : Machine Hearer Unit Unit := beeping.run Hearer.behave 4

theorem beeping_fresh : beeping.Fresh .null := .of Store.start_null _ none () _

theorem beeped_course : Course Hearer.behave Genuine beeping beeped := by
  refine .run ?_
  intro k below mutation tries
  cases k with
  | zero =>
    cases tries
    exact ⟨⟨trivial, trivial⟩, trivial⟩
  | succ k =>
    have quiet : ∀ k < 3, (beeping.run Hearer.behave (k + 1)).tried?.isNone = true := by
      decide +kernel
    rw [Option.isNone_iff_eq_none.mp (quiet k (Nat.lt_of_succ_lt_succ below))] at tries
    cases tries

/-- An integer beyond the doubles as the new greatest period of rest. -/
def farUpdate : Mutation := .update (.map [(.text "idle_period_max_ms", .int (10 ^ 400))]) []

theorem farUpdate_genuine : farUpdate.Genuine := ⟨⟨⟨trivial, trivial⟩, trivial⟩, List.forall_mem_nil _⟩

theorem farUpdate_proper : farUpdate.Proper :=
  .inr ⟨_, rfl, List.forall_mem_singleton.mpr ⟨_, rfl⟩⟩

theorem outcome_farUpdate (live : Settings) :
    (farUpdate.attempt live).outcome = .error .tooLarge := by
  have far : Binary64.ofInt? (10 ^ 400) = none := by decide +kernel
  have numeric : SettingField.idleMax.isNumeric = true := rfl
  rw [farUpdate, Mutation.attempt]
  exact Settings.outcome_update_far live numeric far

/-- The update fails because of the integer. -/
theorem fails_as_documented_beeped : ∃ v ∈ farUpdate.given, v.Causes .tooLarge := by
  have failed := outcome_farUpdate beeped.world.store.live
  exact (beeped_course.fails_as_documented beeping_fresh trivial farUpdate_genuine farUpdate_proper
    failed).resolve_left nofun

/-- On a new store, calls that respect the signatures fail otherwise: for an integer beyond the doubles,
for a step with a key that is no text, and for an index that is too long to be shown. -/
theorem fails_otherwise :
    let first : Machine Hearer Unit Unit :=
      start ⟨.ofSettings .defaults, .empty [], none, (), [.logged .passed]⟩ .done
    let odd : Mutation := .give .corrections [.map [(.int 1, .int 2)]]
    let long : Mutation := .remove (.text "correction_steps") (.int (-10 ^ 4300))
    first.Fresh .null ∧ (∀ call ∈ [farUpdate, odd, long], call.Genuine ∧ call.Proper) ∧
      (farUpdate.attempt first.world.store.live).outcome = .error .tooLarge ∧
      (odd.attempt first.world.store.live).outcome = .error .wrongKind ∧
      (long.attempt first.world.store.live).outcome = .error .badValue := by
  intro first odd long
  have noTexts : ¬Value.TextKeys [(.int 1, .int 2)] := by
    intro texts
    obtain ⟨_, isText⟩ := texts _ (List.mem_singleton_self _)
    cases isText
  have unfit : Value.hasText (.int (-10 ^ 4300)) = false := by decide +kernel
  have negative : ∀ n, Value.int (-10 ^ 4300) = .int n → n < 0 := by
    intro n same
    rw [← Value.int.inj same]
    exact neg_neg_of_pos (by positivity)
  refine ⟨.of Store.start_null _ none () _, ?_, outcome_farUpdate _, ?_, ?_⟩
  · simp only [List.forall_mem_cons]
    exact ⟨⟨farUpdate_genuine, farUpdate_proper⟩,
      ⟨⟨⟨⟨trivial, ⟨⟨⟨trivial, trivial⟩, trivial⟩, trivial⟩⟩, trivial⟩, List.forall_mem_nil _⟩,
        .inr ⟨_, rfl, List.forall_mem_singleton.mpr ⟨_, rfl⟩⟩⟩,
      ⟨trivial, _, rfl⟩, List.forall_mem_nil _⟩
  · exact Settings.outcome_give_odd Settings.defaults_canonical .corrections noTexts []
  · exact Settings.outcome_remove_textless Settings.defaults_canonical .corrections unfit negative

end Machine

end TrainingCollar
