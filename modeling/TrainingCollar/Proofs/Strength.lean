import TrainingCollar.Proofs.Validation

/-! # The strengths of steps

A range is compared with the bounds of its stimulus by its least and its greatest value only.
`Step.Accepted.strengths` says that this is enough: each single strength of an acceptable step lies
between the bounds. In a valid configuration these lie between what the device accepts.
-/

namespace TrainingCollar

/-- Keeping one of two items all along a list leaves one of the items. -/
theorem foldl_mem (keep : Value → Value → Bool) (start : Value) (rest : List Value) :
    rest.foldl (fun a b => if keep a b then b else a) start ∈ start :: rest := by
  induction rest generalizing start with
  | nil => exact List.mem_singleton_self start
  | cons next rest ih =>
    rw [List.foldl_cons]
    rcases List.mem_cons.mp (ih (if keep start next then next else start)) with same | later
    · rw [same]
      split <;> simp
    · exact List.mem_cons_of_mem _ (List.mem_cons_of_mem _ later)

/-- Keeping the better of two numbers all along a list leaves the best of them. -/
private theorem foldl_best (better : Value → Value → Bool)
    (total : ∀ v w : Value, v.Numeric → w.Numeric → better v w = true ∨ better w v = true)
    (trans : ∀ v w u : Value, v.Numeric → w.Numeric → u.Numeric → better v w = true →
      better w u = true → better v u = true)
    {start : Value} {rest : List Value} (numeric : ∀ v ∈ start :: rest, v.Numeric) :
    ∀ v ∈ start :: rest,
      better (rest.foldl (fun a b => if better b a then b else a) start) v = true := by
  induction rest generalizing start with
  | nil =>
    have self := numeric start (List.mem_singleton_self start)
    simpa using (total _ _ self self).elim id id
  | cons b rest ih =>
    obtain ⟨startNumeric, bNumeric, restNumeric⟩ :
        start.Numeric ∧ b.Numeric ∧ ∀ v ∈ rest, v.Numeric := by
      simpa only [List.forall_mem_cons] using numeric
    -- The better of the first two stands for both.
    obtain ⟨kept, keptIs, keptNumeric, beatsStart, beatsB⟩ :
        ∃ kept, (if better b start then b else start) = kept ∧ kept.Numeric ∧
          better kept start = true ∧ better kept b = true := by
      by_cases first : better b start = true
      · exact ⟨b, if_pos first, bNumeric, first, (total _ _ bNumeric bNumeric).elim id id⟩
      · exact ⟨start, if_neg first, startNumeric, (total _ _ startNumeric startNumeric).elim id id,
          (total _ _ bNumeric startNumeric).resolve_left first⟩
    have keptAll : ∀ v ∈ kept :: rest, v.Numeric := List.forall_mem_cons.mpr ⟨keptNumeric, restNumeric⟩
    have bestNumeric := keptAll _ (foldl_mem (fun a b => better b a) kept rest)
    have beats := List.forall_mem_cons.mp (ih keptAll)
    simp only [List.foldl_cons, keptIs]
    intro v among
    rcases List.mem_cons.mp among with rfl | among
    · exact trans _ _ _ bestNumeric keptNumeric startNumeric beats.1 beatsStart
    · rcases List.mem_cons.mp among with rfl | among
      · exact trans _ _ _ bestNumeric keptNumeric bNumeric beats.1 beatsB
      · exact beats.2 v among

theorem withinBounds_eq_true_iff {low high first : Value} {rest : List Value}
    (lowNumeric : low.Numeric) (numeric : ∀ v ∈ first :: rest, v.Numeric) :
    withinBounds low high (first :: rest) = .ok true ↔
      ∀ v ∈ first :: rest, low.le? v = some true ∧ v.le? high = some true := by
  have leastMember := foldl_mem (fun a b => b.le? a == some true) first rest
  have greatestMember := foldl_mem (fun a b => a.le? b == some true) first rest
  have isLeast := foldl_best (fun v w => v.le? w == some true)
    (fun v w left right => by simpa using left.le?_total right)
    (fun v w u left _ _ => by simpa using left.le?_trans) numeric
  have isGreatest := foldl_best (fun v w => w.le? v == some true)
    (fun v w left right => by simpa using right.le?_total left)
    (fun v w u _ _ right => by simpa using flip right.le?_trans) numeric
  simp only [withinBounds, List.headD_cons, List.tail_cons]
  generalize rest.foldl (fun a b => if b.le? a == some true then b else a) first = least
    at leastMember isLeast ⊢
  generalize rest.foldl (fun a b => if a.le? b == some true then b else a) first = greatest
    at greatestMember isGreatest ⊢
  simp only [beq_iff_eq] at isLeast isGreatest
  simp only [both_eq_true_iff, atMost_eq_ok_iff]
  constructor
  · rintro ⟨above, _, below⟩ v member
    exact ⟨lowNumeric.le?_trans above (isLeast v member),
      (numeric v member).le?_trans (isGreatest v member) below⟩
  · intro inside
    exact ⟨(inside least leastMember).1, isLeast greatest greatestMember,
      (inside greatest greatestMember).2⟩

/-- Each strength of each step lies within the bounds of the stimulus, if it has bounds, and these
lie within what the device accepts. -/
def Settings.WithinDevice (s : Settings) : Prop :=
  ∀ which, ∃ steps : List Step, (s.sequence which).items? = some (steps.map .step) ∧
    ∀ step ∈ steps, ∃ kind strengths, step.kind = .choice (.stimulus kind) ∧
      step.strength.items? = some strengths ∧
      ∀ low high, s.strengthBounds kind = some (low, high) → ∀ strength ∈ strengths,
        (Value.int deviceMin).le? low = some true ∧ low.le? strength = some true ∧
          strength.le? high = some true ∧ high.le? (.int deviceMax) = some true

/-- The items of an accepted range are numbers, and there is at least one. -/
theorem RangeAccepted.items {mode values : Value} (accepted : RangeAccepted mode values) :
    ∃ first rest, values.items? = some (first :: rest) ∧ ∀ v ∈ first :: rest, v.Numeric := by
  obtain ⟨_, items, _, isItems, shape, positive⟩ := accepted
  have numeric : ∀ v ∈ items, v.Numeric := fun v member =>
    Value.numeric_of_le?_left rfl (positive v member)
  cases items with
  | nil => simp at shape
  | cons first rest => exact ⟨first, rest, isItems, numeric⟩

/-- Each strength of an acceptable step lies between the bounds of its stimulus, if it has bounds. -/
theorem Step.Accepted.strengths {bounds : Stimulus → Option (Value × Value)} {s : Step}
    (accepted : s.Accepted bounds) : ∃ kind strengths, s.kind = .choice (.stimulus kind) ∧
      s.strength.items? = some strengths ∧ ∀ low high, bounds kind = some (low, high) → low.Numeric →
        ∀ strength ∈ strengths, low.le? strength = some true ∧ strength.le? high = some true := by
  obtain ⟨kind, isKind, bounded⟩ := accepted.bounded
  obtain ⟨first, rest, isStrengths, numeric⟩ := accepted.strength.items
  refine ⟨kind, first :: rest, isKind, isStrengths, ?_⟩
  intro low high bounds lowNumeric
  obtain ⟨items, isItems, inside⟩ := bounded low high bounds
  obtain rfl : items = first :: rest := Option.some.inj (isItems.symm.trans isStrengths)
  exact (withinBounds_eq_true_iff lowNumeric numeric).mp inside

namespace Settings.Sound

variable {s : Settings}

/-- The bounds of a stimulus lie within what the device accepts. -/
theorem bounds_within {kind : Stimulus} {low high : Value} (sound : s.Sound)
    (bounds : s.strengthBounds kind = some (low, high)) :
    (Value.int deviceMin).le? low = some true ∧ high.le? (.int deviceMax) = some true := by
  cases kind with
  | beep => cases bounds
  | vibration =>
    cases bounds
    exact ⟨(sound.strengths .vibeMin (by decide)).1, (sound.strengths .vibeMax (by decide)).2⟩
  | shock =>
    cases bounds
    exact ⟨(sound.strengths .shockMin (by decide)).1, (sound.strengths .shockMax (by decide)).2⟩

end Settings.Sound

end TrainingCollar
