import TrainingCollar.Proofs.CanonicalForm
import TrainingCollar.Proofs.Store.StepEdits

/-! # Putting a configuration in force

A configuration gets into a store in three ways: a store is started with it, it replaces the one in
force, or all its fields are merged over the one in force. The first two only validate; the last
coerces everything again. Coercion leaves a built configuration as it is, whatever was in force before,
so validation is all that is left to fail, and the three come to the same. For the same reason it makes
no difference whether a mapping is read first or merged into the defaults.
-/

namespace TrainingCollar

namespace Settings

variable {s live : Settings} {v : Value}

/-- The configuration, if it is valid. -/
def checked (s : Settings) : Except Fault Settings := do
  s.validate
  return s

theorem Canonical.checked_cases (canonical : s.Canonical) :
    s.checked = .ok s ∨ ∃ violation, s.checked = .error (.invalid violation) := by
  cases isChecked : s.validate with
  | ok passed =>
    left
    rw [checked, isChecked]
    rfl
  | error fault =>
    obtain ⟨violation, rfl⟩ :=
      (canonical.failsOnly_validate allowsViolations_isViolation).allows fault isChecked
    right
    refine ⟨violation, ?_⟩
    rw [checked, isChecked]
    rfl

/-- The store that is started with what a mapping describes. -/
def described {κ : Type} (v : Value) : Except Fault (Store κ) := do
  let s ← read v
  Store.start (.settings s)

/-! ## The three ways -/

theorem start_settings {κ : Type} (s : Settings) :
    (Store.start (.settings s) : Except Fault (Store κ)) = s.checked.map .ofSettings := by
  change (validate s >>= fun _ => _) = (validate s >>= fun _ => _).map _
  cases validate s <;> rfl

theorem result_replace (live s : Settings) :
    ((Mutation.replace (.settings s)).attempt live).result = s.checked := by
  rw [Mutation.attempt, attemptReplace, checked]
  cases isChecked : validate s with
  | ok passed => rfl
  | error fault => exact Attempt.result_rejected ..

/-- A mapping stands for its entries, also if it has none. -/
theorem entriesOf_of_entries? {entries : List (Value × Value)} (isMap : v.entries? = some entries) :
    entriesOf v = .ok entries := by
  unfold entriesOf
  split
  · next notGiven =>
    cases v with
    | map own =>
      obtain rfl := Option.some.inj isMap
      cases own with
      | nil => rfl
      | cons => cases notGiven
    | knot => cases notGiven
    | _ => cases isMap
  · rw [isMap]

/-- An update by a mapping merges its fields. -/
theorem result_update_map (live : Settings) {entries : List (Value × Value)}
    (isMap : v.entries? = some entries) : ((Mutation.update v []).attempt live).result = (do
      let contents ← readFields v
      let candidate ← build (live.withFields contents)
      candidate.checked) := by
  have same : readFields (.map entries) = readFields v := by
    rw [readFields, readFields, isMap]
    rfl
  rw [result_update, entriesOf_of_entries? isMap]
  change (live.merged entries >>= fun merged => pure merged.2) = _
  simp only [merged, same, checked, bind_assoc, pure_bind]

/-- Whatever is in force, an update by the mapping of a built configuration comes to its check, -/
theorem Canonical.result_update_toMap (canonical : s.Canonical) : ∃ mapping, s.toMap = .ok mapping ∧
    ∀ live, ((Mutation.update mapping []).attempt live).result = s.checked := by
  obtain ⟨mapping, isMap, reads⟩ := canonical.readFields_toMap
  obtain ⟨_, same, _, _, hasEntries, _⟩ := canonical.toMap
  obtain rfl := Except.ok.inj (same.symm.trans isMap)
  obtain ⟨entries, isEntries⟩ := Option.isSome_iff_exists.mp hasEntries
  refine ⟨_, isMap, fun live => ?_⟩
  rw [result_update_map live isEntries, reads]
  change (Settings.build (live.withFields _) >>= _) = _
  rw [build_withFields_get, canonical.build]
  rfl

/-- and one of the defaults by any mapping to the check of what is read from it. -/
theorem result_update_defaults {entries : List (Value × Value)} (isMap : v.entries? = some entries) :
    ((Mutation.update v []).attempt defaults).result = (read v >>= checked) := by
  rw [result_update_map defaults isMap, read]
  cases readFields v <;> rfl

end Settings

namespace Machine

variable {κ μ ν : Type}

/-- A built configuration is accepted by a new store, as a replacement and as an update by its mapping,
and it makes no difference in which way it is put in force; or all three refuse it for the same reason.
To read any mapping and start a store with what it describes comes to the same as updating a new store
by it: they put the same configuration in force or fail with the same fault. -/
theorem admissions_agree (behave : κ → Settings → Script κ μ ν) :
    (∀ s : Settings, s.Built → ∃ mapping, s.toMap = .ok mapping ∧ ∀ m : Machine κ μ ν,
      Store.start (.settings s) = .ok (.ofSettings s : Store κ) ∧ m.Puts (.replace (.settings s)) s ∧
          m.Puts (.update mapping []) s ∧
            m.Interchangeable behave (.replace (.settings s)) (.update mapping []) ∨
        ∃ violation, Store.start (.settings s) = (.error (.invalid violation) : Except Fault (Store κ)) ∧
          m.Refuses (.replace (.settings s)) violation ∧ m.Refuses (.update mapping []) violation) ∧
      ∃ store : Store κ, Store.start .null = .ok store ∧
        ∀ (d : Value) (entries : List (Value × Value)), d.entries? = some entries →
          (Settings.described d : Except Fault (Store κ)).map Store.live =
            ((Mutation.update d []).attempt store.live).result := by
  constructor
  · intro s built
    have canonical := Settings.built_iff.mp built
    obtain ⟨mapping, isMap, updates⟩ := canonical.result_update_toMap
    refine ⟨mapping, isMap, fun m => ?_⟩
    have replaces := Settings.result_replace m.world.store.live s
    have updates := updates m.world.store.live
    rw [Settings.start_settings]
    obtain valid | ⟨violation, invalid⟩ := canonical.checked_cases
    · rw [valid] at replaces updates
      rw [valid]
      have replacing := Attempt.result_eq_ok_iff.mp replaces
      have updating := Attempt.result_eq_ok_iff.mp updates
      exact .inl ⟨rfl, replacing, updating, interchangeable replacing updating⟩
    · rw [invalid] at replaces updates
      rw [invalid]
      exact .inr ⟨violation, rfl, Attempt.result_eq_error_iff.mp replaces,
        Attempt.result_eq_error_iff.mp updates⟩
  · refine ⟨_, Store.start_null, fun d entries isMap => ?_⟩
    change _ = ((Mutation.update d []).attempt Settings.defaults).result
    rw [Settings.result_update_defaults isMap, Settings.described]
    cases Settings.read d with
    | error fault => rfl
    | ok s =>
      change (Store.start (.settings s) : Except Fault (Store κ)).map Store.live = s.checked
      rw [Settings.start_settings]
      cases s.checked <;> rfl

/-- The configuration for a quiet room is accepted, and so is a loosely written mapping. -/
theorem admissions_agree_quiet : (∃ mapping, Settings.quiet.toMap = .ok mapping ∧
    (Hearer.session 0).Puts (.replace (.settings Settings.quiet)) Settings.quiet ∧
      (Hearer.session 0).Puts (.update mapping []) Settings.quiet) ∧
    ∃ (store : Store Hearer) (s : Settings), Store.start .null = .ok store ∧
      (Settings.described Settings.loose : Except Fault (Store Hearer)).map Store.live = .ok s ∧
          ((Mutation.update Settings.loose []).attempt store.live).result = .ok s := by
  obtain ⟨configurations, store, started, mappings⟩ := admissions_agree Hearer.behave
  obtain ⟨mapping, isMap, ways⟩ := configurations _ (Settings.built_iff.mpr Settings.quiet_canonical)
  constructor
  · obtain ⟨_, replaces, updates, _⟩ | ⟨violation, refused, _⟩ := ways (Hearer.session 0)
    · exact ⟨mapping, isMap, replaces, updates⟩
    · rw [Store.start, Settings.quiet_valid] at refused
      cases refused
  · have same := mappings Settings.loose _ rfl
    obtain ⟨s, isLive⟩ := isOk_iff.mp (by decide +kernel :
      ((Settings.described Settings.loose : Except Fault (Store Hearer)).map Store.live).isOk = true)
    exact ⟨store, s, started, isLive, same.symm.trans isLive⟩

end Machine

end TrainingCollar
