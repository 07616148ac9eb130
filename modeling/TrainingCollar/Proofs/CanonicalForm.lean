import TrainingCollar.Proofs.SettingsFile

/-! # Canonical forms of mappings

Many mappings describe one configuration: choices may be named in any letter case or by number, ranges
may be bare numbers, fields may be left to their defaults and steps may be given as such. The canonical
form of a mapping is the mapping of the configuration that it describes. Two mappings describe the same
configuration if they have the same canonical form, and a canonical form is its own.
-/

namespace TrainingCollar

namespace Settings

variable {s : Settings} {v form : Value}

/-- The mapping of the configuration that a mapping describes. -/
def canonicalForm (v : Value) : Except Fault Value := do
  let s ← read v
  s.toMap

theorem canonicalForm_of_read (isRead : read v = .ok s) : canonicalForm v = s.toMap := by
  rw [canonicalForm, isRead]
  rfl

/-- A canonical configuration is described by its mapping. -/
theorem Canonical.read_of_toMap (canonical : s.Canonical) (isMap : s.toMap = .ok form) :
    read form = .ok s := by
  obtain ⟨other, isOther, _, _, _, isRead⟩ := canonical.toMap
  obtain rfl : other = form := Except.ok.inj (isOther.symm.trans isMap)
  exact isRead

/-- The mapping of a canonical configuration is its own canonical form. -/
theorem Canonical.canonicalForm (canonical : s.Canonical) (isMap : s.toMap = .ok form) :
    canonicalForm form = .ok form :=
  (canonicalForm_of_read (canonical.read_of_toMap isMap)).trans isMap

/-- Every built step and every built configuration, valid or not, is read back from its mapping as it
was, every number with its kind. A mapping in which all steps are built and that is read at all has a
canonical form, and this is its own canonical form and describes the same configuration. -/
theorem mappings_round_trip :
    (∀ e : Step, e.Built → ∃ v, e.toMap = .ok v ∧ Step.read v = .ok e) ∧
      (∀ s : Settings, s.Built → ∃ v, s.toMap = .ok v ∧ read v = .ok s) ∧
        ∀ (d : Value) (s : Settings), d.Genuine → read d = .ok s → ∃ form,
          canonicalForm d = .ok form ∧ canonicalForm form = .ok form ∧ read form = .ok s := by
  refine ⟨fun e built => ?_, fun s built => ?_, fun d s genuine isRead => ?_⟩
  · obtain ⟨v, isMap, _, isRead⟩ := (Step.built_iff.mp built).toMap
    exact ⟨v, isMap, isRead⟩
  · obtain ⟨v, isMap, _⟩ := (built_iff.mp built).toMap
    exact ⟨v, isMap, (built_iff.mp built).read_of_toMap isMap⟩
  · have canonical := canonical_of_read genuine isRead
    obtain ⟨form, isMap, _⟩ := canonical.toMap
    exact ⟨form, (canonicalForm_of_read isRead).trans isMap, canonical.canonicalForm isMap,
      canonical.read_of_toMap isMap⟩

/-- A vibration of random length. -/
def buzz : Step where
  kind := .choice (.stimulus .vibration)
  startDelay := .int 0
  endDelay := .int 100
  timeMode := .choice (.resolution .random)
  time := rangeValue [.int 100, .int 200]
  strengthMode := .choice (.resolution .fixed)
  strength := rangeValue [.int 20]

theorem buzz_canonical : buzz.Canonical := by
  have integer {n : Int} (near : (Binary64.ofInt? n).isSome = true) : (Number.int n).Admitted := near
  exact {
    kind := ⟨_, rfl, rfl⟩
    startDelay := ⟨.int 0, integer (by decide +kernel), rfl⟩
    endDelay := ⟨.int 100, integer (by decide +kernel), rfl⟩
    timeMode := ⟨_, rfl, rfl⟩
    time := ⟨[.int 100, .int 200], .inr rfl, List.forall_mem_cons.mpr
      ⟨integer (by decide +kernel), List.forall_mem_singleton.mpr (integer (by decide +kernel))⟩, rfl⟩
    strengthMode := ⟨_, rfl, rfl⟩
    strength := ⟨[.int 20], .inl rfl, List.forall_mem_singleton.mpr (integer (by decide +kernel)), rfl⟩ }

/-- A mapping with a choice by number, one by a name in lower case, a bare number for a range and a
step that is given as such. -/
def loose : Value := .map [(.text "alert_type", .int 1), (.text "mic_sensitivity", .int 29),
  (.text "correction_steps", .tuple [.step buzz,
    .map [(.text "type", .text " collar_beep "), (.text "time_range", .int 250)]])]

/-- A step, a configuration and a loosely written mapping that are read back from their mappings. -/
theorem mappings_round_trip_quiet : (∃ v, buzz.toMap = .ok v ∧ Step.read v = .ok buzz) ∧
    (∃ v, quiet.toMap = .ok v ∧ read v = .ok quiet) ∧
      ∃ s form, read loose = .ok s ∧ canonicalForm loose = .ok form ∧ canonicalForm form = .ok form ∧
        form ≠ loose := by
  obtain ⟨steps, configurations, mappings⟩ := mappings_round_trip
  have genuine : loose.Genuine :=
    ⟨⟨trivial, trivial⟩, ⟨trivial, trivial⟩, ⟨trivial, Step.built_iff.mpr buzz_canonical,
      ⟨⟨trivial, trivial⟩, ⟨trivial, trivial⟩, trivial⟩, trivial⟩, trivial⟩
  obtain ⟨s, isRead⟩ := isOk_iff.mp (by decide +kernel : (read loose).isOk = true)
  obtain ⟨form, isForm, fixed, _⟩ := mappings loose s genuine isRead
  refine ⟨steps buzz (Step.built_iff.mpr buzz_canonical), configurations quiet
    (built_iff.mpr quiet_canonical), s, form, isRead, isForm, fixed, ?_⟩
  rintro rfl
  have complete : ((canonicalForm loose).toOption.bind Value.entries?).map List.length = some 14 := by
    decide +kernel
  rw [isForm] at complete
  cases complete

end Settings

end TrainingCollar
