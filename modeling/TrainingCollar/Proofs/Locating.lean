import TrainingCollar.Proofs.CanonicalForm
import TrainingCollar.Proofs.Checks
import TrainingCollar.Proofs.Invariants
import TrainingCollar.Proofs.Places

/-! # Where errors are located

A violation names no step, or the first bad one: `FirstFailing` says of a position in a list that the
item there fails a test which all items before it pass. Reading and validation run through the steps in
their order, so what they blame is carried along the list with the items that have passed already.
`Settings.errors_are_located` says for both what the name of a violation tells.
-/

namespace TrainingCollar

/-- The item at a position is the first of the list that fails a test. -/
structure FirstFailing {α : Type} (passes : α → Prop) (items : List α) (index : Nat) : Prop where
  fails : ∃ item, items[index]? = some item ∧ ¬passes item
  before : ∀ item ∈ items.take index, passes item

theorem FirstFailing.append {α : Type} {passes : α → Prop} {before after : List α} {item : α}
    (passed : ∀ x ∈ before, passes x) (fails : ¬passes item) :
    FirstFailing passes (before ++ item :: after) before.length := by
  refine ⟨⟨item, ?_, fails⟩, ?_⟩
  · rw [List.getElem?_append_right (Nat.le_refl _), Nat.sub_self, List.getElem?_cons_zero]
  · rwa [List.take_left]

open Violation (NamesStep NamesPlace)

/-! ## Reading -/

/-- The name is empty, or that of a field of a step. -/
def Violation.NamesPart (name : String) : Prop := name = "" ∨ ∃ field : StepField, name = field.name

theorem Violation.namesPart_name (field : StepField) : NamesPart field.name := .inr ⟨field, rfl⟩

/-- What goes wrong in a step is a matter of the step or of one of its fields. -/
theorem Violation.namesStep_stepAt (which : Sequence) (index : Nat) {cause : Violation}
    (part : NamesPart cause.fieldName) :
    NamesStep (stepAt which.name index cause).fieldName which index := by
  unfold fieldName
  rcases part with empty | ⟨field, isName⟩
  · rw [empty]
    exact .inl rfl
  · rw [isName]
    cases field <;> exact .inr ⟨_, rfl⟩

section Readers

variable {p : String → Prop} {name : String}

theorem blames_readNumber (holds : p name) (v : Value) :
    FailsOnly (Fault.Blames p) (readNumber name v) := by
  unfold readNumber
  split
  · exact .ite (.ok _) (.unblaming nofun)
  · exact .ite (.ok _) (.refuse_blaming rfl holds)
  · exact .refuse_blaming rfl holds

theorem blames_readNumbers (holds : p name) (items : List Value) :
    FailsOnly (Fault.Blames p) (readNumbers name items) := by
  induction items with
  | nil => exact .ok _
  | cons item rest ih => exact .bind (blames_readNumber holds item) fun _ _ => .bind ih fun _ _ => .pure _

theorem blames_readRange (holds : p name) (v : Value) :
    FailsOnly (Fault.Blames p) (readRange name v) := by
  unfold readRange
  split
  · exact blames_readNumbers holds _
  · exact blames_readNumbers holds _
  · exact .ite (blames_readNumbers holds _) (.refuse_blaming rfl holds)
  · exact .ite (blames_readNumbers holds _) (.refuse_blaming rfl holds)
  · exact .refuse_blaming rfl holds

theorem blames_readChoice (holds : p name) (family : Family) (v : Value) :
    FailsOnly (Fault.Blames p) (readChoice family name v) := by
  unfold readChoice
  dsimp only
  split
  · exact .ok _
  · exact .refuse_blaming rfl holds

theorem blames_refuseUnknown {α : Type} (holds : p "") (keys : List Value)
    {violation : List String → Violation}
    (unnamed : ∀ names, (violation names).field = .text "" ∧ (violation names).fieldName = "") :
    FailsOnly (Fault.Blames p) (refuseUnknown keys violation : Except Fault α) := by
  unfold refuseUnknown
  split
  · next names _ =>
    obtain ⟨noField, noName⟩ := unnamed (sortedNames names)
    refine .refuse_blaming (noField.trans ?_) ?_
    · rw [noName]
    · rwa [noName]
  · exact .unblaming nofun

end Readers

namespace Step

open Violation (NamesPart namesPart_name)

/-- A value is that of a step, or describes one. -/
def Readable (v : Value) : Prop := ∃ step, Step.read v = .ok step

theorem blames_build (given : Step) : FailsOnly (Fault.Blames NamesPart) (build given) := by
  apply FailsOnly.bind (blames_readChoice (namesPart_name .kind) _ _)
  intro _ _
  apply FailsOnly.bind (blames_readNumber (namesPart_name .startDelay) _)
  intro _ _
  apply FailsOnly.bind (blames_readNumber (namesPart_name .endDelay) _)
  intro _ _
  apply FailsOnly.bind (blames_readChoice (namesPart_name .timeMode) _ _)
  intro _ _
  apply FailsOnly.bind (blames_readRange (namesPart_name .time) _)
  intro _ _
  apply FailsOnly.bind (blames_readChoice (namesPart_name .strengthMode) _ _)
  intro _ _
  apply FailsOnly.bind (blames_readRange (namesPart_name .strength) _)
  intro _ _
  exact .pure _

theorem blames_ofEntries (entries : List (Value × Value)) :
    FailsOnly (Fault.Blames NamesPart) (ofEntries entries) := by
  unfold ofEntries
  split
  · refine .ite (.refuse_blaming rfl (namesPart_name .kind)) ?_
    unfold buildFrom
    split
    · exact .unblaming nofun
    · exact blames_build _
  · exact blames_refuseUnknown (.inl rfl) _ fun _ => ⟨rfl, rfl⟩

theorem blames_read (v : Value) : FailsOnly (Fault.Blames NamesPart) (Step.read v) := by
  unfold Step.read
  split
  · exact .ok _
  · exact blames_ofEntries _
  · exact .refuse_blaming rfl (.inl rfl)

end Step

/-- The items before have been read; what the others blame is the first of all that cannot be read. -/
theorem blames_readStepsFrom (which : Sequence) {before items : List Value}
    (passed : ∀ item ∈ before, Step.Readable item) :
    FailsOnly (Fault.Blames fun name => ∃ index, NamesStep name which index ∧
      FirstFailing Step.Readable (before ++ items) index)
      (readStepsFrom which.name before.length items) := by
  induction items generalizing before with
  | nil => exact .ok _
  | cons item rest ih =>
    unfold readStepsFrom
    split
    · next cause failed =>
      have unreadable : ¬Step.Readable item := by
        rintro ⟨step, isStep⟩
        rw [failed] at isStep
        cases isStep
      have blamed := ((Step.blames_read item).allows _ failed cause rfl).2
      exact .refuse_blaming rfl
        ⟨before.length, Violation.namesStep_stepAt which _ blamed, .append passed unreadable⟩
    · next fault other _ => exact .unblaming other
    · next step isStep =>
      have passedToo : ∀ x ∈ before ++ [item], Step.Readable x :=
        List.forall_mem_append.mpr ⟨passed, List.forall_mem_singleton.mpr ⟨step, isStep⟩⟩
      have others := ih passedToo
      rw [List.append_assoc, List.length_append] at others
      exact .map others

/-- The name is that of a field, or that of the first step that cannot be read of the sequence that the
field is given. -/
def Located (field : SettingField) (content : Value) (name : String) : Prop :=
  name = field.name ∨ ∃ which items index, field = .steps which ∧ content.sequence? = some items ∧
    NamesStep name which index ∧ FirstFailing Step.Readable items index

theorem blames_readField (field : SettingField) (content : Value) :
    FailsOnly (Fault.Blames (Located field content)) (readField field content) := by
  have own : Located field content field.name := .inl rfl
  cases field with
  | alert => exact .map (blames_readChoice own _ _)
  | steps which =>
    refine .map ?_
    unfold readSteps
    split
    · next items isItems =>
      refine (blames_readStepsFrom which (List.forall_mem_nil _)).blaming ?_
      rintro name ⟨index, names, first⟩
      exact .inr ⟨which, items, index, rfl, isItems, names, first⟩
    · exact .refuse_blaming rfl own
  | _ => exact .map (blames_readNumber own _)

namespace Settings

/-- One of the entries gives a field content in which this name lies. -/
def LocatedAmong (entries : List (Value × Value)) (name : String) : Prop :=
  ∃ (field : SettingField) (content : Value), (.text field.name, content) ∈ entries ∧
    Located field content name

theorem blames_readEntries (entries : List (Value × Value)) :
    FailsOnly (Fault.Blames (LocatedAmong entries)) (readEntries entries) := by
  induction entries with
  | nil => exact .ok _
  | cons entry rest ih =>
    obtain ⟨key, content⟩ := entry
    have later : FailsOnly (Fault.Blames (LocatedAmong ((key, content) :: rest))) (readEntries rest) := by
      refine ih.blaming ?_
      rintro name ⟨field, given, member, located⟩
      exact ⟨field, given, List.mem_cons_of_mem _ member, located⟩
    unfold readEntries
    split
    · split
      · next field isField =>
        obtain rfl := SettingField.name_of_ofName? isField
        refine .bind ((blames_readField field content).blaming ?_) ?_
        · intro name located
          exact ⟨field, content, List.mem_cons_self, located⟩
        · intro _ _
          exact .bind later fun _ _ => .pure _
      · exact later
    · exact later

/-- What reading a mapping blames: nothing in particular, or something in the content of one of its
fields. -/
theorem blames_read (v : Value) : FailsOnly (Fault.Blames fun name => name = "" ∨
    ∃ entries, v.entries? = some entries ∧ LocatedAmong entries name) (Settings.read v) := by
  unfold Settings.read
  apply FailsOnly.bind
  · unfold readFields
    split
    · exact .refuse_blaming rfl (.inl rfl)
    · next entries isEntries =>
      split
      · refine (blames_readEntries entries).blaming ?_
        exact fun name located => .inr ⟨entries, isEntries, located⟩
      · exact blames_refuseUnknown (.inl rfl) _ fun _ => ⟨rfl, rfl⟩
  · intro contents isRead
    rw [build_withFields defaults_canonical.build isRead]
    exact .ok _

end Settings

/-! ## Validation -/

section Checks

variable {p : String → Prop} {name : String}

theorem blames_atMost (low high : Value) : FailsOnly (Fault.Blames p) (atMost low high) := by
  unfold atMost
  split
  · exact .ok _
  · exact .unblaming nofun

theorem blames_noneNegative (items : List Value) : FailsOnly (Fault.Blames p) (noneNegative items) := by
  induction items with
  | nil => exact .ok _
  | cons item rest ih => exact .both (blames_atMost _ _) ih

theorem blames_withinBounds (low high : Value) (items : List Value) :
    FailsOnly (Fault.Blames p) (withinBounds low high items) :=
  .both (blames_atMost _ _) (.both (blames_atMost _ _) (blames_atMost _ _))

theorem blames_itemsOf (v : Value) : FailsOnly (Fault.Blames p) (itemsOf v) := by
  unfold itemsOf
  split
  · exact .ok _
  · exact .unblaming nofun

theorem blames_sizeOfValue (v : Value) : FailsOnly (Fault.Blames p) (sizeOfValue v) := by
  unfold sizeOfValue
  split
  · exact .ok _
  · exact .unblaming nofun

theorem blames_itemAt (v : Value) (position : Nat) : FailsOnly (Fault.Blames p) (itemAt v position) := by
  unfold itemAt
  dsimp only
  split
  case h_6 => exact .unblaming nofun
  all_goals
    split
    · exact .ok _
    · exact .unblaming nofun

/-- What goes wrong in a range of a step is a matter of the step's field. -/
theorem blames_inStep {q : String → Prop} {label : String} {result : Except Fault Unit}
    (holds : FailsOnly (Fault.Blames q) result) (wide : ∀ part, q part → p (label ++ "." ++ part)) :
    FailsOnly (Fault.Blames p) (inStep label result) := by
  unfold inStep
  split
  · exact .refuse_blaming rfl (wide _ (holds.allows _ rfl _ rfl).2)
  · next other =>
    constructor
    intro fault failed violation same
    exact absurd (same ▸ failed) (other violation)

end Checks

namespace RangeCheck

/-- The field that a check of a range blames, of the two that it is about. -/
def blamed (modeField rangeField : StepField) : RangeCheck → StepField
  | .mode => modeField
  | _ => rangeField

theorem blames {modeField rangeField : StepField} (names : rangeField.name ++ "_type" = modeField.name)
    (mode values : Value) (check : RangeCheck) :
    FailsOnly (Fault.Blames (· = (check.blamed modeField rangeField).name))
      (check.run rangeField.name mode values) := by
  cases check with
  | mode =>
    unfold run
    dsimp only
    split
    · exact .ok _
    · exact .refuse_blaming rfl names
  | size =>
    exact .bind (blames_sizeOfValue _) fun _ _ => .ite (.refuse_blaming rfl rfl) (.pure _)
  | lone =>
    unfold run
    dsimp only
    split
    · exact .bind (blames_sizeOfValue _) fun _ _ => .ite (.refuse_blaming rfl rfl) (.pure _)
    · exact .ok _
  | negative =>
    refine .bind (blames_itemsOf _) fun _ _ => ?_
    exact .demand (.refuse_blaming rfl rfl) (blames_noneNegative _) (.pure _)
  | order =>
    refine .bind (blames_sizeOfValue _) fun _ _ => .ite ?_ (.pure _)
    refine .bind (blames_itemAt _ _) fun _ _ => .bind (blames_itemAt _ _) fun _ _ => ?_
    exact .demand (.refuse_blaming rfl rfl) (blames_atMost _ _) (.pure _)

end RangeCheck

namespace StepCheck

/-- The field that a check of a step blames. -/
def blamed : StepCheck → StepField
  | .kind => .kind
  | .delays | .delayOrder => .startDelay
  | .time check => check.blamed .timeMode .time
  | .strength check => check.blamed .strengthMode .strength
  | .bounds => .strength

theorem blames (s : Step) (bounds : Stimulus → Option (Value × Value)) (label : String)
    (check : StepCheck) : FailsOnly (Fault.Blames (· = label ++ "." ++ check.blamed.name))
      (check.run s bounds label) := by
  have named (field : StepField) : label ++ ("." ++ field.name) = label ++ "." ++ field.name :=
    (String.append_assoc ..).symm
  cases check with
  | kind =>
    rw [run]
    split
    · exact .ok _
    · exact .refuse_blaming rfl (named .kind)
  | delays =>
    refine .forbid (.refuse_blaming rfl (named .startDelay)) (blames_atMost _ _) ?_
    exact .forbid (.refuse_blaming rfl (named .startDelay)) (blames_atMost _ _) (.pure _)
  | delayOrder => exact .forbid (.refuse_blaming rfl (named .startDelay)) (blames_atMost _ _) (.pure _)
  | time check => exact blames_inStep (check.blames rfl _ _) fun _ same => same ▸ rfl
  | strength check => exact blames_inStep (check.blames rfl _ _) fun _ same => same ▸ rfl
  | bounds =>
    rw [run]
    split
    · split
      · exact .ok _
      · refine .bind (blames_itemsOf _) fun _ _ => ?_
        exact .demand (.refuse_blaming rfl (named .strength)) (blames_withinBounds _ _ _) (.pure _)
    · exact .ok _

end StepCheck

/-- What validation of a labelled step blames is the step, or one of its fields. -/
theorem blames_validateStep (s : Step) (bounds : Stimulus → Option (Value × Value)) (which : Sequence)
    (index : Nat) : FailsOnly (Fault.Blames fun name => NamesStep name which index)
      (validateStep s (fun kind => .ok (bounds kind)) (Violation.label which.name index)) := by
  rw [validateStep_eq]
  refine .checkAll fun check _ => (check.blames s bounds _).blaming ?_
  rintro _ rfl
  exact .inr ⟨check.blamed, rfl⟩

namespace Settings

theorem blames_validatePair (s : Settings) (fields : SettingField × SettingField) :
    FailsOnly (Fault.Blames (· = fields.1.name)) (s.validatePair fields) :=
  .demand (.refuse_blaming rfl rfl) (blames_atMost _ _) (.pure _)

theorem blames_validatePeriod (s : Settings) (field : SettingField) :
    FailsOnly (Fault.Blames (· = field.name)) (s.validatePeriod field) :=
  .demand (.refuse_blaming rfl rfl) (blames_atMost _ _) (.pure _)

theorem blames_validateStrength (s : Settings) (field : SettingField) :
    FailsOnly (Fault.Blames (· = field.name)) (s.validateStrength field) :=
  .demand (.refuse_blaming rfl rfl) (blames_atMost _ _)
    (.demand (.refuse_blaming rfl rfl) (blames_atMost _ _) (.pure _))

theorem blames_validateMicrophone (s : Settings) :
    FailsOnly (Fault.Blames (· = SettingField.microphone.name)) s.validateMicrophone := by
  unfold validateMicrophone
  split
  · exact .ite (.ok _) (.refuse_blaming rfl rfl)
  · exact .refuse_blaming rfl rfl

theorem blames_validateAlert (s : Settings) :
    FailsOnly (Fault.Blames (· = SettingField.alert.name)) s.validateAlert := by
  unfold validateAlert
  split
  · exact .ok _
  · exact .refuse_blaming rfl rfl

variable {s : Settings}

/-- Validation accepts the step on its own, with the bounds of the configuration. -/
def Admits (s : Settings) (step : Step) : Prop :=
  validateStep step (fun kind => .ok (s.strengthBounds kind)) "step" = .ok ()

/-- A step is admitted wherever it stands. -/
theorem admits_iff {step : Step} {label : String} : s.Admits step ↔
    validateStep step (fun kind => .ok (s.strengthBounds kind)) label = .ok () :=
  validateStep_eq_ok_iff.trans validateStep_eq_ok_iff.symm

/-- The configuration with no steps at all. -/
def withoutSteps (s : Settings) : Settings :=
  (s.set (.steps .corrections) (stepsValue [])).set (.steps .affirmations) (stepsValue [])

theorem Canonical.withoutSteps (canonical : s.Canonical) : s.withoutSteps.Canonical := by
  have none (which : Sequence) : SettingField.Holds (.steps which) (stepsValue []) :=
    ⟨[], rfl, List.forall_mem_nil _⟩
  exact (canonical.set (none .corrections)).set (none .affirmations)

/-- The steps before have been admitted; what the others blame is the first of all that is not. -/
theorem blames_validateSteps (which : Sequence) {before steps : List Step}
    (passed : ∀ step ∈ before, s.Admits step) :
    FailsOnly (Fault.Blames fun name => ∃ index, NamesStep name which index ∧
      FirstFailing s.Admits (before ++ steps) index)
      (s.validateSteps which.name before.length (steps.map .step)) := by
  induction steps generalizing before with
  | nil => exact .ok _
  | cons step rest ih =>
    refine .bind (.ok step) ?_
    rintro _ ⟨⟩
    by_cases admitted : s.Admits step
    · have passedToo : ∀ x ∈ before ++ [step], s.Admits x :=
        List.forall_mem_append.mpr ⟨passed, List.forall_mem_singleton.mpr admitted⟩
      have others := ih passedToo
      rw [List.append_assoc, List.length_append] at others
      rw [admits_iff.mp admitted]
      exact others
    · refine .bind ((blames_validateStep _ _ which _).blaming ?_) fun _ accepted => ?_
      · intro name names
        exact ⟨before.length, names, .append passed admitted⟩
      · exact absurd (admits_iff.mpr accepted) admitted

/-- All steps of a sequence are admitted. -/
def AdmitsAll (s : Settings) (which : Sequence) : Prop :=
  ∃ steps, s.sequence which = stepsValue steps ∧ ∀ step ∈ steps, s.Admits step

/-- The name is that of the first step that is not admitted, when validation has come to its sequence. -/
def StepLocated (s : Settings) (name : String) : Prop :=
  ∃ which index steps, NamesStep name which index ∧ s.withoutSteps.Valid ∧
    (∃ earlier later, Sequence.all = earlier ++ which :: later ∧ ∀ other ∈ earlier, s.AdmitsAll other) ∧
      s.sequence which = stepsValue steps ∧ FirstFailing s.Admits steps index

theorem Canonical.admitsAll (canonical : s.Canonical) {which : Sequence}
    (accepted : s.validateSequence which = .ok ()) : s.AdmitsAll which := by
  obtain ⟨steps, isSteps, _⟩ := canonical.steps which
  obtain ⟨others, isOthers, all⟩ := validateSequence_eq_ok_iff.mp accepted
  rw [isSteps] at isOthers
  obtain rfl := stepsValue_injective (congrArg Value.list (Option.some.inj isOthers))
  exact ⟨steps, isSteps, fun step member => validateStep_eq_ok_iff.mpr (all step member)⟩

theorem Canonical.blames_validate (canonical : s.Canonical) : FailsOnly (Fault.Blames fun name =>
    (∃ field : SettingField, name = field.name) ∨ s.StepLocated name) s.validate := by
  have isField {x : Except Fault Unit} {field : SettingField}
      (blames : FailsOnly (Fault.Blames (· = field.name)) x) :
      FailsOnly (Fault.Blames fun name =>
        (∃ field : SettingField, name = field.name) ∨ s.StepLocated name) x :=
    blames.blaming fun _ same => .inl ⟨field, same⟩
  refine .bind (.checkAll fun pair _ => isField (s.blames_validatePair pair)) fun _ pairs => ?_
  refine .bind (.checkAll fun field _ => isField (s.blames_validatePeriod field)) fun _ periods => ?_
  refine .bind (.checkAll fun field _ => isField (s.blames_validateStrength field)) fun _ strengths => ?_
  refine .bind (isField s.blames_validateMicrophone) fun _ microphone => ?_
  refine .bind (isField s.blames_validateAlert) fun _ alert =>
    .checkAll_inOrder fun before which later inOrder passed => ?_
  have fields : s.withoutSteps.Valid := by
    simp only [Valid, validate, check_eq_ok_iff]
    exact ⟨pairs, periods, strengths, microphone, alert, rfl⟩
  have earlier : ∀ other ∈ before, s.AdmitsAll other :=
    fun other member => canonical.admitsAll (passed other member)
  obtain ⟨steps, isSteps, _⟩ := canonical.steps which
  unfold validateSequence
  rw [isSteps]
  refine .bind (.ok (steps.map Value.step)) ?_
  rintro _ ⟨⟩
  refine (blames_validateSteps which (List.forall_mem_nil _)).blaming ?_
  rintro name ⟨index, names, first⟩
  exact .inr ⟨which, index, steps, names, fields, ⟨before, later, inOrder, earlier⟩, isSteps, first⟩

/-- What the violations of reading and of validation name: nothing in particular, a field, or a step,
perhaps with one of its fields. A step that is named is the first that cannot be read of those that the
mapping gives its sequence; in validation it is the first of its sequence that is not admitted, and then
everything that is checked before is as it should be. -/
theorem errors_are_located :
    (∀ d violation, read d = .error (.invalid violation) →
      ∃ name, violation.field = .text name ∧ NamesPlace name ∧
        ∀ which index, NamesStep name which index → ∃ entries content items,
          d.entries? = some entries ∧ (.text which.name, content) ∈ entries ∧
            content.sequence? = some items ∧ FirstFailing Step.Readable items index) ∧
    ∀ s : Settings, s.Built → ∀ fault, s.validate = .error fault →
      ∃ violation name, fault = .invalid violation ∧ violation.field = .text name ∧ NamesPlace name ∧
        ∀ which index, NamesStep name which index → s.withoutSteps.Invariants ∧
          (∃ earlier later, Sequence.all = earlier ++ which :: later ∧
            ∀ other ∈ earlier, s.AdmitsAll other) ∧
          ∃ steps, s.sequence which = stepsValue steps ∧ FirstFailing s.Admits steps index := by
  constructor
  · intro d violation failed
    obtain ⟨isField, blamed⟩ := (blames_read d).allows _ failed violation rfl
    refine ⟨violation.fieldName, isField, ?_⟩
    rcases blamed with empty | ⟨entries, isEntries, field, content, member, isName | located⟩
    · exact ⟨.inl empty, fun which index names => absurd empty names.ne_empty⟩
    · exact ⟨.inr (.inl ⟨field, isName⟩), fun which index names => absurd isName (names.ne_field field)⟩
    · obtain ⟨which, items, index, rfl, isItems, names, first⟩ := located
      refine ⟨.inr (.inr ⟨which, index, names⟩), ?_⟩
      intro other position also
      obtain ⟨rfl, rfl⟩ := names.eq also
      exact ⟨entries, content, items, isEntries, member, isItems, first⟩
  · intro s built fault failed
    have canonical := built_iff.mp built
    obtain ⟨violation, rfl⟩ :=
      (canonical.failsOnly_validate allowsViolations_isViolation).allows fault failed
    obtain ⟨isField, blamed⟩ := canonical.blames_validate.allows _ failed violation rfl
    refine ⟨violation, violation.fieldName, rfl, isField, ?_⟩
    rcases blamed with ⟨field, isName⟩ | ⟨which, index, steps, names, fields, earlier, isSteps, first⟩
    · exact ⟨.inr (.inl ⟨field, isName⟩), fun which index names => absurd isName (names.ne_field field)⟩
    · refine ⟨.inr (.inr ⟨which, index, names⟩), ?_⟩
      intro other position also
      obtain ⟨rfl, rfl⟩ := names.eq also
      have invariants := canonical.withoutSteps.sound_iff.mp (valid_iff.mp fields)
      exact ⟨invariants, earlier, steps, isSteps, first⟩

/-- The name in the violation that a computation fails with. -/
def blamed? {α : Type} : Except Fault α → Option String
  | .error (.invalid violation) =>
    match violation.field with
    | .text name => some name
    | _ => none
  | _ => none

theorem exists_of_blamed? {α : Type} {x : Except Fault α} {name : String}
    (blames : blamed? x = some name) :
    ∃ violation, x = .error (.invalid violation) ∧ violation.field = .text name := by
  unfold blamed? at blames
  split at blames
  · next violation =>
    split at blames
    · next isName => exact ⟨violation, rfl, isName.trans (congrArg _ (Option.some.inj blames))⟩
    · cases blames
  · cases blames

/-- A shock whose delay is a word. -/
def slurred : Value := .map [(.text "type", .text "collar_shock"), (.text "start_delay", .text "soon")]

/-- A mapping with two affirmations, the second of which is slurred. -/
def mumbled : Value := .map [(.text "affirmation_steps", .list [.step buzz, slurred])]

/-- A vibration that starts after its end. -/
def belated : Step := { buzz with startDelay := .int 200 }

/-- The defaults with two affirmations, the second of which is belated. -/
def fumbled : Settings := defaults.set (.steps .affirmations) (stepsValue [buzz, belated])

theorem fumbled_canonical : fumbled.Canonical := by
  have late : belated.Canonical :=
    { buzz_canonical with startDelay := Value.isNumber_int (by decide +kernel) }
  refine defaults_canonical.set ⟨[buzz, belated], rfl, ?_⟩
  exact List.forall_mem_cons.mpr ⟨buzz_canonical, List.forall_mem_singleton.mpr late⟩

/-- Both the mapping and the configuration have a bad delay in the second affirmation. -/
theorem errors_are_located_second :
    (∃ violation, read mumbled = .error (.invalid violation) ∧
        violation.field = .text "affirmation_steps[1].start_delay") ∧
      FirstFailing Step.Readable [.step buzz, slurred] 1 ∧
      (∃ violation, fumbled.validate = .error (.invalid violation) ∧
        violation.field = .text "affirmation_steps[1].start_delay") ∧
      fumbled.withoutSteps.Invariants ∧ FirstFailing fumbled.Admits [buzz, belated] 1 := by
  obtain ⟨reading, validation⟩ := errors_are_located
  have second : NamesStep "affirmation_steps[1].start_delay" .affirmations 1 :=
    .inr ⟨.startDelay, by decide⟩
  obtain ⟨unread, isUnread, unreadName⟩ := exists_of_blamed?
    (by decide +kernel : blamed? (read mumbled) = some "affirmation_steps[1].start_delay")
  obtain ⟨invalid, isInvalid, invalidName⟩ := exists_of_blamed?
    (by decide +kernel : blamed? fumbled.validate = some "affirmation_steps[1].start_delay")
  obtain ⟨name, isName, _, located⟩ := reading _ _ isUnread
  obtain rfl := Value.text.inj (unreadName.symm.trans isName)
  obtain ⟨_, _, _, ⟨⟩, member, isItems, first⟩ := located _ _ second
  cases List.mem_singleton.mp member
  cases isItems
  obtain ⟨_, other, ⟨⟩, isOther, _, locatedToo⟩ :=
    validation fumbled (built_iff.mpr fumbled_canonical) _ isInvalid
  obtain rfl := Value.text.inj (invalidName.symm.trans isOther)
  obtain ⟨invariants, _, steps, isSteps, firstToo⟩ := locatedToo _ _ second
  obtain rfl : [buzz, belated] = steps := stepsValue_injective isSteps
  exact ⟨⟨unread, isUnread, unreadName⟩, first, ⟨invalid, isInvalid, invalidName⟩, invariants, firstToo⟩

end Settings

end TrainingCollar
