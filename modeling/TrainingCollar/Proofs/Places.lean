import TrainingCollar.Proofs.Failure
import TrainingCollar.Proofs.Merging

/-! # Places

What a violation names is a place: nothing in particular, a field of a configuration, or a step by its
sequence and position, perhaps with one of its fields. A name tells which of these it is, and which step:
`Violation.NamesStep.eq`. `Fault.Blames` says of a fault that it names a place with some property if it is
a violation; it is carried through a computation by the rules of `FailsOnly`.
-/

namespace TrainingCollar

namespace Violation

variable {name other : String} {which sequence : Sequence} {index position : Nat}

/-- The name is that of a step at a position of a sequence, or of one of its fields. -/
def NamesStep (name : String) (which : Sequence) (index : Nat) : Prop :=
  name = label which.name index ∨
    ∃ field : StepField, name = label which.name index ++ "." ++ field.name

/-- The name is empty, or that of a field of a configuration, of a step or of a field of a step. -/
def NamesPlace (name : String) : Prop :=
  name = "" ∨ (∃ field : SettingField, name = field.name) ∨ ∃ which index, NamesStep name which index

/-- A label in characters: a name, and a position in brackets. -/
theorem toList_label_append (name rest : String) (index : Nat) : (label name index ++ rest).toList =
    name.toList ++ '[' :: ((toString index).toList ++ ']' :: rest.toList) := by
  simp [label, String.toList_append]

theorem NamesStep.exists_rest (names : NamesStep name which index) : ∃ rest : String, name.toList =
    which.name.toList ++ '[' :: ((toString index).toList ++ ']' :: rest.toList) := by
  obtain rfl | ⟨field, rfl⟩ := names
  · refine ⟨"", ?_⟩
    rw [← toList_label_append, String.append_empty]
  · refine ⟨"." ++ field.name, ?_⟩
    rw [← toList_label_append, String.append_assoc]

theorem notMem_name (which : Sequence) : '[' ∉ which.name.toList := by cases which <;> decide

theorem toList_toString (index : Nat) : (toString index).toList = Decimal.digitsOf index := by
  rw [show toString index = index.repr from rfl, Nat.repr_eq_ofList_toDigits, String.toList_ofList]
  rfl

theorem notMem_toString (index : Nat) : ']' ∉ (toString index).toList := by
  intro member
  rw [toList_toString] at member
  exact absurd (Yaml.isDigit_of_mem_digitsOf member) (by decide)

theorem toString_nat_injective : Function.Injective (toString : Nat → String) := by
  intro index position same
  have digits : Decimal.digitsOf index = Decimal.digitsOf position := by
    rw [← toList_toString, same, toList_toString]
  rw [← Yaml.ofDigitChars_digitsOf index, digits, Yaml.ofDigitChars_digitsOf]

/-- What stands before the first mark tells where the mark stands. -/
theorem append_mark_inj {mark : Char} {x y afterX afterY : List Char} (freeX : mark ∉ x)
    (freeY : mark ∉ y) (same : x ++ mark :: afterX = y ++ mark :: afterY) : x = y ∧ afterX = afterY := by
  induction x generalizing y with
  | nil =>
    cases y with
    | nil => exact ⟨rfl, (List.cons.inj same).2⟩
    | cons c y => exact absurd ((List.cons.inj same).1 ▸ List.mem_cons_self) freeY
  | cons c x ih =>
    cases y with
    | nil => exact absurd ((List.cons.inj same).1 ▸ List.mem_cons_self) freeX
    | cons d y =>
      obtain ⟨rfl, rest⟩ := List.cons.inj same
      obtain ⟨rfl, after⟩ := ih (fun among => freeX (List.mem_cons_of_mem _ among))
        (fun among => freeY (List.mem_cons_of_mem _ among)) rest
      exact ⟨rfl, after⟩

/-- No two steps share a name. -/
theorem NamesStep.eq (names : NamesStep name which index) (also : NamesStep name sequence position) :
    which = sequence ∧ index = position := by
  obtain ⟨rest, isName⟩ := names.exists_rest
  obtain ⟨others, isOther⟩ := also.exists_rest
  obtain ⟨sameName, afterName⟩ :=
    append_mark_inj (notMem_name which) (notMem_name sequence) (isName.symm.trans isOther)
  obtain ⟨sameIndex, _⟩ :=
    append_mark_inj (notMem_toString index) (notMem_toString position) afterName
  have sameSequence : SettingField.steps which = .steps sequence :=
    SettingField.name_injective (String.toList_inj.mp sameName)
  exact ⟨SettingField.steps.inj sameSequence, toString_nat_injective (String.toList_inj.mp sameIndex)⟩

/-- Steps have brackets in their names, and nothing else has. -/
theorem NamesStep.bracket (names : NamesStep name which index) : '[' ∈ name.toList := by
  obtain ⟨rest, isName⟩ := names.exists_rest
  rw [isName]
  exact List.mem_append_right _ List.mem_cons_self

theorem NamesStep.ne_field (names : NamesStep name which index) (field : SettingField) :
    name ≠ field.name := by
  rintro rfl
  have bracket := names.bracket
  revert bracket
  rcases field with _ | _ | _ | _ | _ | _ | _ | _ | _ | _ | _ | _ | ⟨_ | _⟩ <;> decide

theorem NamesStep.ne_empty (names : NamesStep name which index) : name ≠ "" := by
  rintro rfl
  exact absurd names.bracket (by decide)

end Violation

/-! ## What faults blame -/

/-- If the fault is a violation, it names a place with this property. -/
def Fault.Blames (p : String → Prop) (fault : Fault) : Prop :=
  ∀ violation, fault = .invalid violation →
    violation.field = .text violation.fieldName ∧ p violation.fieldName

section Blames

variable {α : Type} {p q : String → Prop} {violation : Violation} {fault : Fault}

theorem FailsOnly.blaming {x : Except Fault α} (holds : FailsOnly (Fault.Blames p) x)
    (wide : ∀ name, p name → q name) : FailsOnly (Fault.Blames q) x := by
  apply holds.mono
  intro fault blames violation same
  exact (blames violation same).imp_right (wide _)

theorem FailsOnly.refuse_blaming (named : violation.field = .text violation.fieldName)
    (holds : p violation.fieldName) :
    FailsOnly (Fault.Blames p) (TrainingCollar.refuse violation : Except Fault α) := by
  apply FailsOnly.error
  intro other same
  unfold Fault.ofViolation at same
  split at same
  · cases same
    exact ⟨named, holds⟩
  · cases same

theorem FailsOnly.unblaming (other : ∀ violation, fault ≠ .invalid violation) :
    FailsOnly (Fault.Blames p) (.error fault : Except Fault α) := by
  apply FailsOnly.error
  intro violation same
  exact absurd same (other violation)

end Blames

end TrainingCollar
