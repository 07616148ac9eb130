import TrainingCollar.Proofs.Failure
import TrainingCollar.Proofs.Genuine

/-! # What makes reading fail

Reading a value fails with a violation, or with one of three other faults. `Value.Causes` says what a
value must have among its parts for each of these: an integer beyond the doubles, a mapping with a key
that is no text, or something that no message can show. That these are the only ways to fail is
established for each reader, from numbers up to `Settings.failsOnly_read`.
-/

namespace TrainingCollar

namespace Value

/-- A part of a value: the value itself, an item of a sequence, or what a mapping has under a key, at
any depth. -/
inductive Part (part : Value) : Value → Prop
  | self : Part part part
  | item {whole item : Value} {items : List Value} (isSequence : whole.sequence? = some items)
      (member : item ∈ items) (below : Part part item) : Part part whole
  | content {whole key content : Value} {entries : List (Value × Value)}
      (isEntries : whole.entries? = some entries) (member : (key, content) ∈ entries)
      (below : Part part content) : Part part whole

theorem Part.trans {part middle whole : Value} (lower : Part part middle)
    (upper : Part middle whole) : Part part whole := by
  induction upper with
  | self => exact lower
  | item isSequence member _ ih => exact .item isSequence member ih
  | content isEntries member _ ih => exact .content isEntries member ih

/-- An integer that no double comes close to. -/
def IsFar (v : Value) : Prop := ∃ n, v.exposed = .int n ∧ Binary64.ofInt? n = none

def IsText (v : Value) : Prop := ∃ name, v = .text name

/-- Every key of the entries is a text. -/
def TextKeys (entries : List (Value × Value)) : Prop := ∀ entry ∈ entries, entry.1.IsText

/-- Why reading a value may fail with a fault. Violations are always possible. -/
def Causes (v : Value) : Fault → Prop
  | .invalid _ => True
  | .tooLarge => ∃ part : Value, part.Part v ∧ part.IsFar
  | .wrongKind => ∃ part entries, Part part v ∧ part.entries? = some entries ∧ ¬TextKeys entries
  | .badValue => ∃ part : Value, part.Part v ∧ part.hasText = false
  | _ => False

theorem causes_violations (v : Value) : AllowsViolations v.Causes := fun _ => trivial

/-- What a part causes, the whole causes. -/
theorem Part.causes {part whole : Value} (isPart : part.Part whole) {fault : Fault}
    (caused : part.Causes fault) : whole.Causes fault := by
  cases fault with
  | invalid => trivial
  | tooLarge =>
    obtain ⟨inner, below, far⟩ := caused
    exact ⟨inner, below.trans isPart, far⟩
  | wrongKind =>
    obtain ⟨inner, entries, below, isEntries, odd⟩ := caused
    exact ⟨inner, entries, below.trans isPart, isEntries, odd⟩
  | badValue =>
    obtain ⟨inner, below, textless⟩ := caused
    exact ⟨inner, below.trans isPart, textless⟩
  | _ => cases caused

/-- Nothing among the parts of the value keeps a reader from answering with a violation. -/
structure Ordinary (v : Value) : Prop where
  near : ∀ part : Value, part.Part v → ¬part.IsFar
  texts : ∀ part entries, Part part v → part.entries? = some entries → TextKeys entries
  shown : ∀ part : Value, part.Part v → part.hasText = true

theorem Ordinary.isViolation {v : Value} (ordinary : v.Ordinary) {fault : Fault}
    (caused : v.Causes fault) : fault.IsViolation := by
  cases fault with
  | invalid violation => exact ⟨violation, rfl⟩
  | tooLarge =>
    obtain ⟨part, below, far⟩ := caused
    exact absurd far (ordinary.near part below)
  | wrongKind =>
    obtain ⟨part, entries, below, isEntries, odd⟩ := caused
    exact absurd (ordinary.texts part entries below isEntries) odd
  | badValue =>
    obtain ⟨part, below, textless⟩ := caused
    exact absurd ((ordinary.shown part below).symm.trans textless) nofun
  | _ => cases caused

end Value

/-- A refusal that shows a value fails as that value makes it fail. -/
theorem FailsOnly.refuse_showing {α : Type} {violation : Violation} {v : Value}
    (shown : violation.shown = [v]) :
    FailsOnly v.Causes (TrainingCollar.refuse violation : Except Fault α) := by
  apply FailsOnly.error
  unfold Fault.ofViolation
  rw [shown]
  split
  · trivial
  · next textless => exact ⟨v, .self, by simpa using textless⟩

section Readers

variable {v : Value}

theorem failsOnly_readNumber (name : String) (v : Value) : FailsOnly v.Causes (readNumber name v) := by
  unfold readNumber
  split
  · next n isInt =>
    split
    · exact .ok _
    · next far => exact .error ⟨v, .self, n, isInt, by simpa using far⟩
  · split
    · exact .ok _
    · exact .refuse_showing rfl
  · exact .refuse_showing rfl

theorem failsOnly_readNumbers {allowed : Fault → Prop} (name : String) {items : List Value}
    (causes : ∀ item ∈ items, ∀ fault, item.Causes fault → allowed fault) :
    FailsOnly allowed (readNumbers name items) := by
  induction items with
  | nil => exact .ok _
  | cons item rest ih =>
    obtain ⟨first, others⟩ := List.forall_mem_cons.mp causes
    apply FailsOnly.bind ((failsOnly_readNumber name item).mono first)
    intro number _
    apply FailsOnly.bind (ih others)
    intro numbers _
    exact .pure _

/-- A bare number fails as the value it is found in makes it fail. -/
theorem failsOnly_readNumbers_bare (name : String) {n : Number} (same : v.exposed = .ofNumber n) :
    FailsOnly v.Causes (readNumbers name [.ofNumber n]) := by
  have first : FailsOnly v.Causes (readNumber name (.ofNumber n)) := by
    cases n with
    | int n =>
      change FailsOnly _ (if _ then _ else _)
      split
      · exact .ok _
      · next far => exact .error ⟨v, .self, n, same, by simpa using far⟩
    | float x =>
      change FailsOnly _ (if _ then _ else _)
      split
      · exact .ok _
      · exact .refuse v.causes_violations (List.forall_mem_singleton.mpr rfl)
  exact .bind first fun _ _ => .pure _

theorem failsOnly_readRange (name : String) (v : Value) : FailsOnly v.Causes (readRange name v) := by
  have parts {items : List Value} (isSequence : v.sequence? = some items) :
      ∀ item ∈ items, ∀ fault, item.Causes fault → v.Causes fault := by
    intro item member fault
    exact (Value.Part.item isSequence member .self).causes
  unfold readRange
  split
  · next k same => exact failsOnly_readNumbers_bare name (n := .int k) same
  · next x same => exact failsOnly_readNumbers_bare name (n := .float x) same
  · next items same =>
    split
    · exact failsOnly_readNumbers name (parts (by rw [Value.sequence?, same]))
    · exact .refuse_showing rfl
  · next items same =>
    split
    · exact failsOnly_readNumbers name (parts (by rw [Value.sequence?, same]))
    · exact .refuse_showing rfl
  · exact .refuse_showing rfl

theorem failsOnly_readChoice (family : Family) (name : String) (v : Value) :
    FailsOnly v.Causes (readChoice family name v) := by
  unfold readChoice
  dsimp only
  split
  · exact .ok _
  · exact .refuse_showing rfl

/-- Keys can be listed if they are texts. -/
theorem allTexts?_eq_none_iff {keys : List Value} :
    allTexts? keys = none ↔ ∃ key ∈ keys, ¬key.IsText := by
  induction keys with
  | nil => simp [allTexts?]
  | cons key rest ih =>
    rw [List.exists_mem_cons_iff]
    cases key with
    | text name => simp [allTexts?, ih, Value.IsText]
    | _ => exact iff_of_true rfl (.inl fun ⟨_, isText⟩ => by cases isText)

/-- Unknown keys are refused, if they can be listed. -/
theorem failsOnly_refuseUnknown {α : Type} {allowed : Fault → Prop}
    (violations : AllowsViolations allowed) {entries : List (Value × Value)} {p : Value → Bool}
    {violation : List String → Violation} (shown : ∀ names, (violation names).shown = [])
    (odd : ¬Value.TextKeys entries → allowed .wrongKind) : FailsOnly allowed
      (refuseUnknown ((entries.map Prod.fst).filter p) violation : Except Fault α) := by
  unfold refuseUnknown
  split
  · next names _ =>
    apply FailsOnly.refuse violations
    rw [shown]
    exact List.forall_mem_nil _
  · next unlisted =>
    apply FailsOnly.error
    apply odd
    intro texts
    obtain ⟨key, among, noText⟩ := allTexts?_eq_none_iff.mp unlisted
    obtain ⟨entry, member, rfl⟩ := List.mem_map.mp (List.mem_filter.mp among).1
    exact noText (texts entry member)

/-- A key that is no text is unknown, and then nothing can be listed. -/
theorem refuseUnknown_odd {α : Type} {entries : List (Value × Value)} {p : Value → Bool}
    (odd : ¬Value.TextKeys entries) (unknown : ∀ key : Value, ¬key.IsText → p key = true)
    (violation : List String → Violation) :
    (entries.map Prod.fst).filter p ≠ [] ∧
      refuseUnknown ((entries.map Prod.fst).filter p) violation =
        (.error .wrongKind : Except Fault α) := by
  simp only [Value.TextKeys, not_forall] at odd
  obtain ⟨entry, member, noText⟩ := odd
  have among : entry.1 ∈ (entries.map Prod.fst).filter p :=
    List.mem_filter.mpr ⟨List.mem_map_of_mem member, unknown _ noText⟩
  refine ⟨List.ne_nil_of_mem among, ?_⟩
  rw [refuseUnknown, allTexts?_eq_none_iff.mpr ⟨_, among, noText⟩]

end Readers

namespace Step

variable {v : Value}

/-- A field is read from a part of a value, or from a default that can be read. -/
theorem failsOnly_field {α : Type} {read : Value → Except Fault α} {given : Option Value}
    {fallback : Value} (reads : ∀ w, FailsOnly w.Causes (read w))
    (isPart : ∀ w, given = some w → w.Part v) (isOk : ∃ a, read fallback = .ok a) :
    FailsOnly v.Causes (read ((given.or (some fallback)).getD .null)) := by
  cases given with
  | none =>
    obtain ⟨a, isOk⟩ := isOk
    change FailsOnly v.Causes (read fallback)
    rw [isOk]
    exact .ok a
  | some w => exact (reads w).mono fun _ => (isPart w rfl).causes

theorem failsOnly_buildFrom {given : StepField → Option Value} (hasKind : (given .kind).isSome = true)
    (isPart : ∀ field w, given field = some w → w.Part v) : FailsOnly v.Causes (buildFrom given) := by
  obtain ⟨kind, isKind⟩ := Option.isSome_iff_exists.mp hasKind
  have near : (Number.int 0).Admitted := (by decide +kernel : (Binary64.ofInt? 0).isSome = true)
  have zero (name : String) : readNumber name (.int 0) = .ok (.int 0) :=
    readNumber_ofNumber name (n := .int 0) near
  have range (name : String) : readRange name (rangeValue [.int 0]) = .ok [.int 0] :=
    readRange_of_sequence name (.inl rfl) (List.forall_mem_singleton.mpr near) (.inr rfl)
  unfold buildFrom
  rw [isKind]
  apply FailsOnly.bind ((failsOnly_readChoice _ _ kind).mono fun _ => (isPart _ kind isKind).causes)
  intro _ _
  apply FailsOnly.bind (failsOnly_field (failsOnly_readNumber _) (isPart .startDelay) ⟨_, zero _⟩)
  intro _ _
  apply FailsOnly.bind (failsOnly_field (failsOnly_readNumber _) (isPart .endDelay) ⟨_, zero _⟩)
  intro _ _
  apply FailsOnly.bind (failsOnly_field (failsOnly_readChoice _ _) (isPart .timeMode) ⟨_, rfl⟩)
  intro _ _
  apply FailsOnly.bind (failsOnly_field (failsOnly_readRange _) (isPart .time) ⟨_, range _⟩)
  intro _ _
  apply FailsOnly.bind (failsOnly_field (failsOnly_readChoice _ _) (isPart .strengthMode) ⟨_, rfl⟩)
  intro _ _
  apply FailsOnly.bind (failsOnly_field (failsOnly_readRange _) (isPart .strength) ⟨_, range _⟩)
  intro _ _
  exact .pure _

/-- What is found under a key is a part of the mapping. -/
theorem part_of_lookup? {entries : List (Value × Value)} {key w : Value}
    (isEntries : v.entries? = some entries) (found : Value.lookup? entries key = some w) :
    w.Part v := by
  obtain ⟨⟨other, content⟩, isFound, rfl⟩ := Option.map_eq_some_iff.mp found
  exact .content isEntries (List.mem_of_find?_eq_some isFound) .self

theorem failsOnly_ofEntries {entries : List (Value × Value)}
    (isEntries : v.entries? = some entries) : FailsOnly v.Causes (ofEntries entries) := by
  unfold ofEntries
  split
  · dsimp only
    split
    · exact .refuse v.causes_violations nofun
    · next given =>
      rw [Bool.not_eq_true, Option.isNone_eq_false_iff] at given
      apply failsOnly_buildFrom given
      intro field w found
      exact part_of_lookup? isEntries found
  · exact failsOnly_refuseUnknown v.causes_violations (fun _ => rfl) fun odd =>
      ⟨v, entries, .self, isEntries, odd⟩

theorem failsOnly_read (v : Value) : FailsOnly v.Causes (Step.read v) := by
  unfold Step.read
  split
  · exact .ok _
  · next same => exact failsOnly_ofEntries (by rw [Value.entries?, same])
  · exact .refuse v.causes_violations nofun

/-- A mapping with a key that is no text cannot be read as a step. -/
theorem read_odd {entries : List (Value × Value)} (odd : ¬Value.TextKeys entries) :
    Step.read (.map entries) = .error .wrongKind := by
  have unknown (key : Value) (noText : ¬key.IsText) : (!isField key) = true := by
    cases key with
    | text name => exact absurd ⟨name, rfl⟩ noText
    | _ => rfl
  obtain ⟨found, refused⟩ := refuseUnknown_odd (α := Step) odd unknown .unknownStepFields
  change ofEntries entries = _
  unfold ofEntries
  split
  · contradiction
  · exact refused

end Step

section Fields

variable {allowed : Fault → Prop}

theorem failsOnly_readStepsFrom (violations : AllowsViolations allowed) (name : String) (index : Nat)
    {items : List Value} (causes : ∀ item ∈ items, ∀ fault, item.Causes fault → allowed fault) :
    FailsOnly allowed (readStepsFrom name index items) := by
  induction items generalizing index with
  | nil => exact .ok _
  | cons item rest ih =>
    obtain ⟨first, others⟩ := List.forall_mem_cons.mp causes
    unfold readStepsFrom
    split
    · exact .refuse violations nofun
    · next failed => exact .error (first _ ((Step.failsOnly_read item).allows _ failed))
    · exact .map (ih (index + 1) others)

theorem failsOnly_readSteps (name : String) (v : Value) : FailsOnly v.Causes (readSteps name v) := by
  unfold readSteps
  split
  · next items isItems =>
    apply failsOnly_readStepsFrom v.causes_violations
    intro item member fault
    exact (Value.Part.item isItems member .self).causes
  · exact .refuse v.causes_violations nofun

theorem failsOnly_readField (field : SettingField) (v : Value) :
    FailsOnly v.Causes (readField field v) := by
  cases field with
  | alert => exact .map (failsOnly_readChoice _ _ v)
  | steps which => exact .map (failsOnly_readSteps _ v)
  | _ => exact .map (failsOnly_readNumber _ v)

namespace Settings

theorem failsOnly_readEntries {entries : List (Value × Value)}
    (causes : ∀ entry ∈ entries, ∀ fault, entry.2.Causes fault → allowed fault) :
    FailsOnly allowed (readEntries entries) := by
  induction entries with
  | nil => exact .ok _
  | cons entry rest ih =>
    obtain ⟨key, content⟩ := entry
    obtain ⟨first, others⟩ := List.forall_mem_cons.mp causes
    unfold readEntries
    split
    · split
      · next field _ =>
        apply FailsOnly.bind ((failsOnly_readField field content).mono first)
        intro _ _
        apply FailsOnly.bind (ih others)
        intro _ _
        exact .pure _
      · exact ih others
    · exact ih others

/-- Reading fields from entries fails as their contents make it fail, or for a key that is no text. -/
theorem failsOnly_readFields (violations : AllowsViolations allowed) {v : Value}
    (causes : ∀ entries, v.entries? = some entries →
      ∀ entry ∈ entries, ∀ fault, entry.2.Causes fault → allowed fault)
    (odd : ∀ entries, v.entries? = some entries → ¬Value.TextKeys entries → allowed .wrongKind) :
    FailsOnly allowed (readFields v) := by
  unfold readFields
  split
  · exact .refuse violations nofun
  · next entries isEntries =>
    split
    · exact failsOnly_readEntries (causes entries isEntries)
    · exact failsOnly_refuseUnknown violations (fun _ => rfl) (odd entries isEntries)

/-- A mapping with a key that is no text cannot be read as fields. -/
theorem readFields_odd {entries : List (Value × Value)} (odd : ¬Value.TextKeys entries) :
    readFields (.map entries) = .error .wrongKind := by
  have unknown (key : Value) (noText : ¬key.IsText) : (!isField key) = true := by
    cases key with
    | text name => exact absurd ⟨name, rfl⟩ noText
    | _ => rfl
  obtain ⟨found, refused⟩ :=
    refuseUnknown_odd (α := List (SettingField × Value)) odd unknown .unknownFields
  unfold readFields
  rw [Value.entries?_map]
  dsimp only
  split
  · contradiction
  · exact refused

/-- Reading a genuine value as a configuration fails as the value makes it fail. -/
theorem failsOnly_read {v : Value} (genuine : v.Genuine) : FailsOnly v.Causes (Settings.read v) := by
  have contents : FailsOnly v.Causes (readFields v) := by
    apply failsOnly_readFields v.causes_violations
    · intro entries isEntries entry member fault
      exact (Value.Part.content isEntries member .self).causes
    · intro entries isEntries odd
      exact ⟨v, entries, .self, isEntries, odd⟩
  apply FailsOnly.bind contents
  intro contents read
  have filled := defaults_canonical.withFields (holds_of_readFields genuine read)
  rw [filled.build]
  exact .ok _

end Settings

end Fields

end TrainingCollar
