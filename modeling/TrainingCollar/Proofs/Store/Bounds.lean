import TrainingCollar.Proofs.Invariants
import TrainingCollar.Proofs.Store.Updating

/-! # Bounds and the steps there are

An update may move the bounds for the strengths of shocks and vibrations, several at once and in any
direction. In a store that was only given what was built, `Machine.Course.bounds_decide` says when it is
accepted: each pair of bounds has to be in order, within what a device accepts, and around every strength
of every step of its stimulus. So beeps are never in the way, and neither is anything when bounds are
moved apart.
-/

namespace TrainingCollar

/-! ## What is given under a name -/

namespace Value

variable {name : String} {content : Value} {entries : List (Value × Value)}
  {named fields : List (String × Value)}

theorem lookup_eq_none (fresh : name ∉ named.map Prod.fst) : named.lookup name = none := by
  rw [List.lookup_eq_none_iff]
  rintro ⟨key, value⟩ member
  have apart : name ≠ key := by
    rintro rfl
    exact fresh (List.mem_map_of_mem member)
  simpa using apart

theorem mem_of_lookup (found : named.lookup name = some content) : (name, content) ∈ named := by
  obtain ⟨before, after, rfl, _⟩ := List.lookup_eq_some_iff.mp found
  exact List.mem_append_right before List.mem_cons_self

theorem mem_named_iff (nodup : (named.map Prod.fst).Nodup) :
    (.text name, content) ∈ named.map (fun (name, content) => (Value.text name, content)) ↔
      named.lookup name = some content := by
  induction named with
  | nil => exact iff_of_false List.not_mem_nil nofun
  | cons entry rest ih =>
    obtain ⟨key, value⟩ := entry
    obtain ⟨fresh, others⟩ := List.nodup_cons.mp nodup
    rw [List.map_cons, List.mem_cons, ih others, List.lookup_cons]
    by_cases same : name = key
    · subst same
      simp [lookup_eq_none fresh, eq_comm]
    · have apart : (name == key) = false := by simpa using same
      simp [apart, same]

/-- Entering contents under names, each once, leaves them there and changes nothing else. -/
theorem mem_foldl_insert_iff (nodup : (fields.map Prod.fst).Nodup) :
    (.text name, content) ∈ fields.foldl
        (fun entries (name, content) => Value.insert entries (.text name) content) entries ↔
      fields.lookup name = some content ∨
        fields.lookup name = none ∧ (.text name, content) ∈ entries := by
  induction fields generalizing entries with
  | nil => simp
  | cons entry rest ih =>
    obtain ⟨key, value⟩ := entry
    obtain ⟨fresh, others⟩ := List.nodup_cons.mp nodup
    rw [List.foldl_cons, ih others, mem_insert_text_iff, List.lookup_cons]
    by_cases same : name = key
    · subst same
      simp [lookup_eq_none fresh, eq_comm]
    · have apart : (name == key) = false := by simpa using same
      simp only [apart, same, if_false]

end Value

/-- A number that is neither a NaN nor infinite, of any size. -/
def Number.IsFinite : Number → Prop
  | .int _ => True
  | .float x => x.isFinite = true

namespace Number

variable {n : Number}

theorem Admitted.isFinite (admitted : n.Admitted) : n.IsFinite := by
  cases n with
  | int => exact trivial
  | float => exact admitted

/-- A field takes any finite number that a device could take for a strength. -/
theorem IsFinite.admitted (isFinite : n.IsFinite) (least : 0 ≤ n.exact) (most : n.exact ≤ 100) :
    n.Admitted := by
  cases n with
  | int n =>
    apply Binary64.isSome_ofInt?
    exact (natAbs_of_exact least most).trans (Nat.pow_le_pow_right (by decide) (by decide))
  | float => exact isFinite

end Number

namespace Settings

variable {s live : Settings} {p : Value} {named fields : List (String × Value)}
  {bound : SettingField → Value} {field : SettingField}

/-- What is given for a field, by the named fields of a call or else by its mapping. -/
def given (named fields : List (String × Value)) (field : SettingField) : Option Value :=
  (fields.lookup field.name).or (named.lookup field.name)

theorem mem_updateEntries_iff (nodupNamed : (named.map Prod.fst).Nodup)
    (nodupFields : (fields.map Prod.fst).Nodup) {content : Value} :
    (.text field.name, content) ∈ updateEntries named fields ↔
      given named fields field = some content := by
  rw [updateEntries, Value.mem_foldl_insert_iff nodupFields, Value.mem_named_iff nodupNamed, given]
  cases fields.lookup field.name <;> simp

/-- What is to be found in a field, if what is given is taken as it is. -/
def wanted (live : Settings) (named fields : List (String × Value)) (field : SettingField) : Value :=
  (given named fields field).getD (live.get field)

/-- Finite numbers are given, for bounds of strengths and nothing else. -/
def OnlyBounds (given : List (String × Value)) : Prop :=
  ∀ entry ∈ given, ∃ field ∈ strengthFields, ∃ n : Number, n.IsFinite ∧
    entry = (field.name, .ofNumber n)

namespace OnlyBounds

theorem given {content : Value} (only : OnlyBounds (named ++ fields))
    (isGiven : Settings.given named fields field = some content) :
    field ∈ strengthFields ∧ ∃ n : Number, n.IsFinite ∧ content = .ofNumber n := by
  have among : (field.name, content) ∈ named ++ fields := by
    rw [List.mem_append, or_comm]
    exact (Option.or_eq_some_iff.mp isGiven).imp Value.mem_of_lookup
      fun later => Value.mem_of_lookup later.2
  obtain ⟨other, isBound, n, isFinite, same⟩ := only _ among
  obtain ⟨isName, isContent⟩ := Prod.mk.inj same
  obtain rfl := SettingField.name_injective isName
  exact ⟨isBound, n, isFinite, isContent⟩

theorem known (only : OnlyBounds (named ++ fields)) : ∀ entry ∈ updateEntries named fields,
    ∃ field : SettingField, entry.1 = .text field.name := by
  let isName (key : Value) : Prop := ∃ field : SettingField, key = .text field.name
  let isAny (_ : Value) : Prop := True
  have isKnown (entry : String × Value) (member : entry ∈ named ++ fields) :
      isName (.text entry.1) ∧ isAny entry.2 := by
    obtain ⟨field, _, _, _, rfl⟩ := only entry member
    exact ⟨⟨field, rfl⟩, trivial⟩
  have new : ∀ entry ∈ fields, isName (.text entry.1) ∧ isAny entry.2 :=
    fun entry member => isKnown entry (List.mem_append_right _ member)
  have old : ∀ entry ∈ named.map fun (name, content) => (Value.text name, content),
      isName entry.1 ∧ isAny entry.2 :=
    List.forall_mem_map.mpr fun entry member => isKnown entry (List.mem_append_left _ member)
  intro entry member
  exact (Value.forall_mem_foldl_insert new old entry member).1

theorem wanted_of_notMem (only : OnlyBounds (named ++ fields)) (other : field ∉ strengthFields) :
    live.wanted named fields field = live.get field := by
  rw [wanted]
  cases isGiven : Settings.given named fields field with
  | none => rfl
  | some content => exact absurd (only.given isGiven).1 other

theorem wanted_isFinite (only : OnlyBounds (named ++ fields)) (canonical : live.Canonical)
    (isBound : field ∈ strengthFields) :
    ∃ n : Number, n.IsFinite ∧ live.wanted named fields field = .ofNumber n := by
  rw [wanted]
  cases isGiven : Settings.given named fields field with
  | none =>
    obtain ⟨n, admitted, isNumber⟩ := canonical.strength_isNumber isBound
    exact ⟨n, admitted.isFinite, isNumber⟩
  | some content => exact (only.given isGiven).2

end OnlyBounds

/-! ## Other bounds -/

/-- Contents for some fields are found in these fields afterwards, and no others have changed. -/
theorem get_withFields (s : Settings) (fields : List SettingField) (content : SettingField → Value)
    (field : SettingField) : (s.withFields (fields.map fun other => (other, content other))).get field =
      if field ∈ fields then content field else s.get field := by
  induction fields generalizing s with
  | nil => rfl
  | cons first rest ih =>
    refine (ih (s.set first (content first))).trans ?_
    by_cases later : field ∈ rest
    · rw [if_pos later, if_pos (List.mem_cons_of_mem first later)]
    · rw [if_neg later]
      by_cases same : field = first
      · subst same
        rw [if_pos List.mem_cons_self, SettingsOf.get_set_self]
      · have missing : field ∉ first :: rest := by simp [same, later]
        rw [if_neg missing, SettingsOf.get_set_of_ne _ _ same]

/-- The configuration with other bounds for the strengths. -/
def rebounded (live : Settings) (bound : SettingField → Value) : Settings :=
  live.withFields (strengthFields.map fun field => (field, bound field))

theorem get_rebounded (kept : ∀ field, field ∉ strengthFields → bound field = live.get field)
    (field : SettingField) : (live.rebounded bound).get field = bound field := by
  refine (get_withFields live strengthFields bound field).trans ?_
  split
  · rfl
  · next other => exact (kept field other).symm

theorem sequence_rebounded (which : Sequence) :
    (live.rebounded bound).sequence which = live.sequence which := by cases which <;> rfl

theorem Canonical.rebounded (canonical : live.Canonical)
    (numbers : ∀ field ∈ strengthFields, (bound field).IsNumber) :
    (live.rebounded bound).Canonical := by
  apply canonical.withFields
  rw [List.forall_mem_map]
  intro field isBound
  have number := numbers field isBound
  have numeric := strengthFields_isNumeric field isBound
  cases field with
  | alert | steps => cases numeric
  | _ => exact number

/-- What is found in a field after bounds were merged: what was given for it, else what it held. -/
theorem Merges.get_eq_wanted (merges : s.Merges live (updateEntries named fields))
    (canonical : live.Canonical) (only : OnlyBounds (named ++ fields))
    (nodupNamed : (named.map Prod.fst).Nodup) (nodupFields : (fields.map Prod.fst).Nodup)
    (field : SettingField) : s.get field = live.wanted named fields field ∧
      (field ∈ strengthFields → (live.wanted named fields field).IsNumber) := by
  rw [wanted]
  cases isGiven : given named fields field with
  | none =>
    have missing (content : Value) : (.text field.name, content) ∉ updateEntries named fields := by
      rw [mem_updateEntries_iff nodupNamed nodupFields, isGiven]
      exact nofun
    exact ⟨merges.others field missing, canonical.strength_isNumber⟩
  | some content =>
    obtain ⟨isBound, n, _, rfl⟩ := only.given isGiven
    have read := merges.named field _ ((mem_updateEntries_iff nodupNamed nodupFields).mpr isGiven)
    rw [readField_numeric_iff (strengthFields_isNumeric field isBound),
      Value.exposed_ofNumber] at read
    obtain ⟨same, number⟩ := read
    rw [← same] at number ⊢
    exact ⟨rfl, fun _ => number⟩

/-- Bounds that the fields take can be merged. -/
theorem OnlyBounds.merges_rebounded (only : OnlyBounds (named ++ fields))
    (nodupNamed : (named.map Prod.fst).Nodup) (nodupFields : (fields.map Prod.fst).Nodup)
    (numbers : ∀ field ∈ strengthFields, (live.wanted named fields field).IsNumber) :
    (live.rebounded (live.wanted named fields)).Merges live (updateEntries named fields) where
  known := only.known
  named field content member := by
    have isGiven := (mem_updateEntries_iff nodupNamed nodupFields).mp member
    obtain ⟨isBound, n, _, rfl⟩ := only.given isGiven
    have number := numbers field isBound
    have same : live.wanted named fields field = .ofNumber n := by rw [wanted, isGiven]; rfl
    rw [get_rebounded fun _ => only.wanted_of_notMem, same,
      readField_numeric_iff (strengthFields_isNumeric field isBound), Value.exposed_ofNumber]
    exact ⟨rfl, same ▸ number⟩
  others field missing := by
    rw [get_rebounded fun _ => only.wanted_of_notMem, wanted]
    cases isGiven : Settings.given named fields field with
    | none => rfl
    | some content =>
      have among := (mem_updateEntries_iff nodupNamed nodupFields).mpr isGiven
      exact absurd among (missing content)
  sharing := sharing_withFields ..

/-- Merging bounds puts them in their fields, if the fields take them. -/
theorem merges_bounds_iff (canonical : live.Canonical) (only : OnlyBounds (named ++ fields))
    (nodupNamed : (named.map Prod.fst).Nodup) (nodupFields : (fields.map Prod.fst).Nodup) :
    s.Merges live (updateEntries named fields) ↔ s = live.rebounded (live.wanted named fields) ∧
      ∀ field ∈ strengthFields, (live.wanted named fields field).IsNumber := by
  constructor
  · intro merges
    have holds := merges.get_eq_wanted canonical only nodupNamed nodupFields
    have sharing : s.sharing = (live.rebounded (live.wanted named fields)).sharing :=
      merges.sharing.trans (sharing_withFields ..).symm
    refine ⟨ext_get (fun field => ?_) sharing, fun field => (holds field).2⟩
    rw [get_rebounded fun _ => only.wanted_of_notMem]
    exact (holds field).1
  · rintro ⟨rfl, numbers⟩
    exact only.merges_rebounded nodupNamed nodupFields numbers

/-! ## Bounds around strengths -/

/-- Two bounds are in order and within what a device accepts, and around every strength of every step
of a stimulus. -/
structure Encloses (s : Settings) (kind : Stimulus) (low high : ℚ) : Prop where
  ordered : low ≤ high
  least : 0 ≤ low
  most : high ≤ 100
  steps : ∀ which items (step : Step), (s.sequence which).items? = some items → .step step ∈ items →
    step.kind = .choice (.stimulus kind) → ∀ value ∈ step.strength.exacts, low ≤ value ∧ value ≤ high

/-- What encloses the bounds that enclose the steps encloses the steps. -/
theorem Encloses.widen {kind : Stimulus} {low high lower higher : ℚ} (encloses : s.Encloses kind low high)
    (below : lower ≤ low) (above : high ≤ higher) (least : 0 ≤ lower) (most : higher ≤ 100) :
    s.Encloses kind lower higher where
  ordered := below.trans (encloses.ordered.trans above)
  least := least
  most := most
  steps := by
    intro which items step isItems member isKind value among
    obtain ⟨notBelow, notAbove⟩ := encloses.steps which items step isItems member isKind value among
    exact ⟨below.trans notBelow, notAbove.trans above⟩

theorem Invariants.encloses (invariants : s.Invariants) :
    s.Encloses .shock s.shockMin.exact s.shockMax.exact ∧
      s.Encloses .vibration s.vibeMin.exact s.vibeMax.exact := by
  obtain ⟨shockLeast, shockOrdered, shockMost⟩ := invariants.shock
  obtain ⟨vibeLeast, vibeOrdered, vibeMost⟩ := invariants.vibe
  constructor
  · exact ⟨shockOrdered, shockLeast, shockMost, fun which items step isItems member =>
      (invariants.steps which items step isItems member).shock⟩
  · exact ⟨vibeOrdered, vibeLeast, vibeMost, fun which items step isItems member =>
      (invariants.steps which items step isItems member).vibration⟩

/-- With other bounds the invariants hold if the bounds enclose the steps. -/
theorem Invariants.rebounded_iff (invariants : live.Invariants) :
    (live.rebounded bound).Invariants ↔
      live.Encloses .shock (bound .shockMin).exact (bound .shockMax).exact ∧
        live.Encloses .vibration (bound .vibeMin).exact (bound .vibeMax).exact := by
  constructor
  · intro rebounded
    obtain ⟨shock, vibration⟩ := rebounded.encloses
    have same (which : Sequence) : ((live.rebounded bound).sequence which).items? =
        (live.sequence which).items? := by rw [sequence_rebounded]
    exact ⟨⟨shock.ordered, shock.least, shock.most, fun which items step isItems =>
        shock.steps which items step ((same which).trans isItems)⟩,
      ⟨vibration.ordered, vibration.least, vibration.most, fun which items step isItems =>
        vibration.steps which items step ((same which).trans isItems)⟩⟩
  · rintro ⟨shock, vibration⟩
    refine ⟨invariants.idle, invariants.action, invariants.decibel,
      ⟨shock.least, shock.ordered, shock.most⟩, ⟨vibration.least, vibration.ordered, vibration.most⟩,
      invariants.microphone, ?_⟩
    intro which items step isItems member
    rw [sequence_rebounded] at isItems
    obtain ⟨startDelay, delays, time, strength, _, _⟩ :=
      invariants.steps which items step isItems member
    exact ⟨startDelay, delays, time, strength, shock.steps which items step isItems member,
      vibration.steps which items step isItems member⟩

/-- An update of bounds is accepted if the bounds it leads to enclose the steps. -/
theorem Canonical.exists_result_bounds_iff (canonical : live.Canonical) (valid : live.Valid)
    (gives : p.Gives named) (nodup : (fields.map Prod.fst).Nodup)
    (only : OnlyBounds (named ++ fields)) :
    (∃ s, ((Mutation.update p fields).attempt live).result = .ok s) ↔
      live.Encloses .shock (live.wanted named fields .shockMin).exact
          (live.wanted named fields .shockMax).exact ∧
        live.Encloses .vibration (live.wanted named fields .vibeMin).exact
          (live.wanted named fields .vibeMax).exact := by
  have invariants : live.Invariants := canonical.sound_iff.mp (valid_iff.mp valid)
  simp only [result_update_iff_merges canonical.build gives,
    merges_bounds_iff canonical only gives.2 nodup, ← invariants.rebounded_iff]
  constructor
  · rintro ⟨s, ⟨rfl, numbers⟩, valid⟩
    exact (canonical.rebounded numbers).sound_iff.mp (valid_iff.mp valid)
  · intro rebounded
    obtain ⟨shock, vibration⟩ := invariants.rebounded_iff.mp rebounded
    have numbers : ∀ field ∈ strengthFields, (live.wanted named fields field).IsNumber := by
      have within {field : SettingField} (isBound : field ∈ strengthFields)
          (least : 0 ≤ (live.wanted named fields field).exact)
          (most : (live.wanted named fields field).exact ≤ 100) :
          (live.wanted named fields field).IsNumber := by
        obtain ⟨n, isFinite, same⟩ := only.wanted_isFinite canonical isBound
        rw [same, Value.exact_ofNumber] at least most
        exact ⟨n, isFinite.admitted least most, same⟩
      simp only [strengthFields, List.forall_mem_cons]
      exact ⟨within (by decide) shock.least (shock.ordered.trans shock.most),
        within (by decide) (shock.least.trans shock.ordered) shock.most,
        within (by decide) vibration.least (vibration.ordered.trans vibration.most),
        within (by decide) (vibration.least.trans vibration.ordered) vibration.most,
        List.forall_mem_nil _⟩
    exact ⟨_, ⟨rfl, numbers⟩, valid_iff.mpr ((canonical.rebounded numbers).sound_iff.mpr rebounded)⟩

/-! ## Two steps -/

/-- A shock of a random strength. -/
def jolt : Step where
  kind := .choice (.stimulus .shock)
  startDelay := .int 0
  endDelay := .int 0
  timeMode := .choice (.resolution .fixed)
  time := rangeValue [.int 1000]
  strengthMode := .choice (.resolution .random)
  strength := rangeValue [.int 20, .int 60]

/-- A beep with a strength that no shock has. -/
def hum : Step := { jolt with
  kind := .choice (.stimulus .beep)
  strengthMode := .choice (.resolution .fixed)
  strength := rangeValue [.int 90] }

/-- The defaults with a beep among the corrections and a shock among the affirmations. -/
def jolting : Settings :=
  (defaults.set (.steps .corrections) (stepsValue [hum])).set (.steps .affirmations)
    (stepsValue [jolt])

theorem jolting_canonical : jolting.Canonical := by
  have admitted {n : Int} (near : (Binary64.ofInt? n).isSome = true) : (Number.int n).Admitted := near
  have zero : Value.IsNumber (.int 0) := isNumber_zero
  have single {n : Int} (near : (Binary64.ofInt? n).isSome = true) :
      (rangeValue [.int n]).IsRange :=
    ⟨[.int n], .inl rfl, List.forall_mem_singleton.mpr (admitted near), rfl⟩
  have range : (rangeValue [.int 20, .int 60]).IsRange := by
    refine ⟨[.int 20, .int 60], .inr rfl, ?_, rfl⟩
    simp only [List.forall_mem_cons]
    exact ⟨admitted (by decide +kernel), admitted (by decide +kernel), List.forall_mem_nil _⟩
  have beep : hum.Canonical :=
    ⟨⟨_, rfl, rfl⟩, zero, zero, ⟨_, rfl, rfl⟩, single (by decide +kernel), ⟨_, rfl, rfl⟩,
      single (by decide +kernel)⟩
  have shock : jolt.Canonical :=
    ⟨⟨_, rfl, rfl⟩, zero, zero, ⟨_, rfl, rfl⟩, single (by decide +kernel), ⟨_, rfl, rfl⟩, range⟩
  have corrections : SettingField.Holds (.steps .corrections) (stepsValue [hum]) :=
    ⟨[hum], rfl, List.forall_mem_singleton.mpr beep⟩
  have affirmations : SettingField.Holds (.steps .affirmations) (stepsValue [jolt]) :=
    ⟨[jolt], rfl, List.forall_mem_singleton.mpr shock⟩
  exact (defaults_canonical.set corrections).set affirmations

theorem jolting_valid : jolting.Valid := by decide +kernel

/-- Only the shock has to lie between its bounds. -/
theorem jolting_encloses_shock_iff {low high : ℚ} (ordered : low ≤ high) (least : 0 ≤ low)
    (most : high ≤ 100) : jolting.Encloses .shock low high ↔ low ≤ 20 ∧ 60 ≤ high := by
  have strengths : jolt.strength.exacts = [20, 60] := by
    change [((20 : Int) : ℚ), ((60 : Int) : ℚ)] = _
    norm_num
  constructor
  · intro encloses
    have within := encloses.steps .affirmations _ jolt rfl (List.mem_singleton_self _) rfl
    rw [strengths] at within
    exact ⟨(within 20 (by simp)).1, (within 60 (by simp)).2⟩
  · rintro ⟨below, above⟩
    refine ⟨ordered, least, most, ?_⟩
    intro which items step isItems member isKind value among
    cases which with
    | corrections =>
      cases isItems
      obtain rfl := Value.step.inj (List.mem_singleton.mp member)
      cases isKind
    | affirmations =>
      cases isItems
      obtain rfl := Value.step.inj (List.mem_singleton.mp member)
      rw [strengths] at among
      simp only [List.mem_cons, List.not_mem_nil, or_false] at among
      rcases among with rfl | rfl
      · exact ⟨below, le_trans (by norm_num) above⟩
      · exact ⟨below.trans (by norm_num), above⟩

end Settings

namespace Machine

variable {κ μ ν : Type} {behave : κ → Settings → Script κ μ ν} {first m : Machine κ μ ν}

/-- In a store that only ever was given steps and configurations as they were built, a call that gives
finite numbers for bounds of strengths and nothing else, in one value, in named fields or in both, is
accepted exactly if the bounds that come of it enclose the steps: each pair is in order, within what a
device accepts, and around every strength of every step of its stimulus in both sequences. It leaves all
other fields as they were. So moving bounds apart, as far as a device accepts, is always accepted. -/
theorem Course.bounds_decide {initial : Value} (fresh : first.Fresh initial)
    (genuine : initial.Genuine) (course : Course behave Genuine first m) {p : Value}
    {named fields : List (String × Value)} (gives : p.Gives named)
    (nodup : (fields.map Prod.fst).Nodup) (only : Settings.OnlyBounds (named ++ fields)) :
    let live := m.world.store.live
    let bound (field : SettingField) : ℚ := (live.wanted named fields field).exact
    ((∃ s, m.Puts (.update p fields) s) ↔
        live.Encloses .shock (bound .shockMin) (bound .shockMax) ∧
          live.Encloses .vibration (bound .vibeMin) (bound .vibeMax)) ∧
      (∀ s, m.Puts (.update p fields) s → s = live.rebounded (live.wanted named fields)) ∧
        (0 ≤ bound .shockMin → bound .shockMin ≤ live.shockMin.exact →
          live.shockMax.exact ≤ bound .shockMax → bound .shockMax ≤ 100 →
            0 ≤ bound .vibeMin → bound .vibeMin ≤ live.vibeMin.exact →
              live.vibeMax.exact ≤ bound .vibeMax → bound .vibeMax ≤ 100 →
                ∃ s, m.Puts (.update p fields) s) := by
  intro live bound
  have canonical : live.Canonical := course.canonical fresh genuine fun _ permitted => permitted
  have coherent := (course.reachable fresh.reachable).coherent
  have valid : live.Valid := coherent.live.valid canonical.isApart
  have puts_iff (s : Settings) : m.Puts (.update p fields) s ↔
      ((Mutation.update p fields).attempt live).result = .ok s := Attempt.result_eq_ok_iff.symm
  have decided := canonical.exists_result_bounds_iff valid gives nodup only
  simp only [puts_iff]
  refine ⟨decided, ?_, ?_⟩
  · intro s accepted
    rw [Settings.result_update_iff_merges canonical.build gives,
      Settings.merges_bounds_iff canonical only gives.2 nodup] at accepted
    exact accepted.1.1
  · intro shockLeast shockBelow shockAbove shockMost vibeLeast vibeBelow vibeAbove vibeMost
    obtain ⟨shock, vibration⟩ := (canonical.sound_iff.mp (Settings.valid_iff.mp valid)).encloses
    exact decided.mpr ⟨shock.widen shockBelow shockAbove shockLeast shockMost,
      vibration.widen vibeBelow vibeAbove vibeLeast vibeMost⟩

/-- A new store with the two steps. -/
def jolted : Machine Hearer Unit Unit :=
  start ⟨.ofSettings .jolting, .empty [], none, (), [.logged .passed]⟩ .done

theorem jolted_fresh : jolted.Fresh (.settings Settings.jolting) := by
  refine .of ?_ _ none () _
  rw [Settings.start_settings, Settings.checked, Settings.jolting_valid]
  rfl

/-- Bounds can be moved up to the strengths of the shock, and no closer. -/
theorem bounds_decide_jolted :
    (∃ s, jolted.Puts (.update (namedMap [("collar_min_shock", .int 20)])
      [("collar_max_shock", .int 60)]) s) ∧
        ¬∃ s, jolted.Puts (.update .null [("collar_max_shock", .int 59)]) s := by
  have genuine : Value.Genuine (.settings Settings.jolting) :=
    Settings.built_iff.mpr Settings.jolting_canonical
  have course : Course Hearer.behave Genuine jolted jolted := .refl
  have bound (field : SettingField) (isBound : field ∈ Settings.strengthFields) (n : Int) :
      ∃ other ∈ Settings.strengthFields, ∃ number : Number, number.IsFinite ∧
        (field.name, Value.int n) = (other.name, .ofNumber number) :=
    ⟨field, isBound, .int n, trivial, rfl⟩
  constructor
  · have gives : (namedMap [("collar_min_shock", .int 20)]).Gives [("collar_min_shock", .int 20)] :=
      ⟨rfl, by decide⟩
    have only : Settings.OnlyBounds ([("collar_min_shock", .int 20)] ++
        [("collar_max_shock", .int 60)]) := by
      refine List.forall_mem_cons.mpr ⟨?_, List.forall_mem_singleton.mpr ?_⟩
      · exact bound .shockMin (by decide) 20
      · exact bound .shockMax (by decide) 60
    have decided := (course.bounds_decide jolted_fresh genuine gives (by decide) only).1
    refine decided.mpr ⟨?_, ?_⟩
    · change Settings.jolting.Encloses .shock ((20 : Int) : ℚ) ((60 : Int) : ℚ)
      refine (Settings.jolting_encloses_shock_iff ?_ ?_ ?_).mpr ?_ <;> norm_num
    · exact (Settings.jolting_canonical.sound_iff.mp
        (Settings.valid_iff.mp Settings.jolting_valid)).encloses.2
  · have gives : Value.null.Gives [] := ⟨rfl, List.nodup_nil⟩
    have only : Settings.OnlyBounds ([] ++ [("collar_max_shock", .int 59)]) :=
      List.forall_mem_singleton.mpr (bound .shockMax (by decide) 59)
    have decided := (course.bounds_decide jolted_fresh genuine gives (by decide) only).1
    rw [decided]
    rintro ⟨shock, _⟩
    change Settings.jolting.Encloses .shock ((5 : Int) : ℚ) ((59 : Int) : ℚ) at shock
    have around := (Settings.jolting_encloses_shock_iff shock.ordered shock.least shock.most).mp shock
    exact absurd around.2 (by norm_num)

end Machine

end TrainingCollar
