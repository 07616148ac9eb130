import TrainingCollar.Mapping
import TrainingCollar.Proofs.Coercion
import TrainingCollar.Proofs.Yaml.Meaning

/-! # Built configurations as sheets

The mapping that a built configuration is written as is a sheet, and coercion makes the configuration
of it again, every number with its kind: `Settings.Canonical.toMap`. The same holds of each step.
-/

namespace TrainingCollar

open Yaml Yaml.Node

/-! ## Names -/

theorem Choice.isNameText (c : Choice) : IsNameText c.name.toList := by
  rcases c with (_ | _ | _) | (_ | _ | _ | _ | _) | (_ | _ | _) <;>
    exact ⟨by decide, by decide, by decide⟩

theorem StepField.isNameText (field : StepField) : IsNameText field.name.toList := by
  cases field <;> exact ⟨by decide, by decide, by decide⟩

theorem StepField.name_injective : Function.Injective StepField.name := fun a b same => by
  have found := StepField.ofName?_name a
  rw [same, StepField.ofName?_name] at found
  exact (Option.some.inj found).symm

theorem SettingField.isNameText (field : SettingField) : IsNameText field.name.toList := by
  rcases field with _ | _ | _ | _ | _ | _ | _ | _ | _ | _ | _ | _ | ⟨_ | _⟩ <;>
    exact ⟨by decide, by decide, by decide⟩

/-- A choice is read from its name. -/
theorem readChoice_name (name : String) {family : Family} {c : Choice} (isFamily : c.family = family) :
    readChoice family name (.text c.name) = .ok c := by
  subst isFamily
  have upper : Text.upper (Text.trim c.name) = c.name := by
    rcases c with (_ | _ | _) | (_ | _ | _ | _ | _) | (_ | _ | _) <;> rfl
  simp only [readChoice, Value.exposed, upper, Family.ofName?_name]

/-! ## Contents as nodes -/

/-- A node of a kind represents the value. -/
def Value.WrittenAs (kind : Node → Prop) (v : Value) : Prop := ∃ node, kind node ∧ node.Represents v

theorem Value.WrittenAs.imp {kind wider : Node → Prop} {v : Value} (written : v.WrittenAs kind)
    (wide : ∀ {node}, kind node → wider node) : v.WrittenAs wider := by
  obtain ⟨node, isKind, represents⟩ := written
  exact ⟨node, wide isKind, represents⟩

/-- How documents write a number. -/
def Number.documentText : Number → List Char
  | .int n => (toString n).toList
  | .float x => x.documentText

theorem Number.Admitted.represents {n : Number} (admitted : n.Admitted) :
    (ofWord n.documentText).Represents (.ofNumber n) := by
  cases n with
  | int n =>
    have fits := fits_of_ofInt? admitted
    have isInt := ofPlain_toString n
    refine represents_scalar ?_ (by rw [documentText, isInt]; rfl) ?_
    · rw [Value.ofNumber, ofValue, if_pos fits, documentText, isInt]
    · rw [documentText, isInt, readScalar, readInteger_toString fits]
      rfl
  | float x =>
    have isFloat := Binary64.ofPlain_documentText admitted
    refine represents_scalar ?_ (by rw [documentText, isFloat]; rfl) ?_
    · rw [Value.ofNumber, ofValue, documentText, isFloat]
    · rw [documentText, isFloat, readScalar, Binary64.readFloat_documentText admitted]
      rfl

theorem Number.Admitted.isWord {n : Number} (admitted : n.Admitted) :
    isWord n.documentText = true := by
  cases n with
  | int n => exact isWord_toString n
  | float x => exact isWord_documentText admitted

theorem writtenAs_number {n : Number} (admitted : n.Admitted) :
    (Value.ofNumber n).WrittenAs IsCell :=
  ⟨_, ⟨_, admitted.isWord, rfl⟩, admitted.represents⟩

theorem writtenAs_choice (c : Choice) : (Value.text c.name).WrittenAs IsCell :=
  ⟨_, ⟨_, c.isNameText.word, rfl⟩, represents_name c.isNameText⟩

/-- Numbers are written as a row. -/
theorem writtenAs_numbers {numbers : List Number} (admitted : ∀ n ∈ numbers, n.Admitted) :
    (Value.list (numbers.map .ofNumber)).WrittenAs IsRow := by
  refine ⟨_, ⟨numbers.map Number.documentText, ?_, rfl⟩, represents_list ?_⟩
  · exact List.forall_mem_map.mpr fun n member => (admitted n member).isWord
  · induction numbers with
    | nil => exact .nil
    | cons n rest ih =>
      obtain ⟨first, others⟩ := List.forall_mem_cons.mp admitted
      exact .cons first.represents (ih others)

/-- Each of some named contents has a node. -/
theorem exists_pairs {kind : Node → Prop} {named : List (String × Value)}
    (names : ∀ entry ∈ named, IsNameText entry.1.toList)
    (written : ∀ entry ∈ named, entry.2.WrittenAs kind) : ∃ pairs,
      List.Forall₂ RepresentsEntry pairs (named.map fun (name, content) => (.text name, content)) ∧
        (∀ pair ∈ pairs, IsName pair.1 ∧ kind pair.2) ∧
          ∀ entry ∈ named, ∃ pair ∈ pairs, pair.2.Represents entry.2 := by
  induction named with
  | nil => exact ⟨[], .nil, List.forall_mem_nil _, List.forall_mem_nil _⟩
  | cons entry rest ih =>
    obtain ⟨isName, otherNames⟩ := List.forall_mem_cons.mp names
    obtain ⟨⟨node, isKind, represents⟩, otherContents⟩ := List.forall_mem_cons.mp written
    obtain ⟨pairs, represent, named, found⟩ := ih otherNames otherContents
    refine ⟨(ofWord entry.1.toList, node) :: pairs, ?_, ?_, ?_⟩
    · exact .cons ⟨⟨entry.1, isName, rfl, rfl⟩, represents⟩ represent
    · exact List.forall_mem_cons.mpr ⟨⟨⟨_, isName, rfl⟩, isKind⟩, named⟩
    · refine List.forall_mem_cons.mpr ⟨⟨_, List.mem_cons_self, represents⟩, fun entry member => ?_⟩
      obtain ⟨pair, among, represents⟩ := found entry member
      exact ⟨pair, List.mem_cons_of_mem _ among, represents⟩

theorem scalar?_of_represents_list {node : Node} {items : List Value}
    (represents : node.Represents (.list items)) : node.scalar? = none := by
  have written := represents.written
  rw [ofValue, map_eq_ok_iff] at written
  obtain ⟨_, _, rfl⟩ := written
  rfl

theorem distinct_of_nodup {named : List (String × Value)} (nodup : (named.map Prod.fst).Nodup) :
    Distinct (named.map fun (name, content) => (.text name, content)) := by
  rw [List.Nodup, List.pairwise_map] at nodup
  refine List.pairwise_map.mpr (nodup.imp fun {a b} differ => ?_)
  simp only [Value.same, beq_eq_false_iff_ne]
  exact differ

/-- Contents under different names, not all of which are scalars, are written as a record. -/
theorem writtenAs_namedMap {kind : Node → Prop} {named : List (String × Value)}
    (names : ∀ entry ∈ named, IsNameText entry.1.toList) (nodup : (named.map Prod.fst).Nodup)
    (written : ∀ entry ∈ named, entry.2.WrittenAs kind)
    (wide : ∃ entry ∈ named, ∃ items, entry.2 = .list items) :
    (namedMap named).WrittenAs (IsRecord kind) := by
  obtain ⟨pairs, represent, named, found⟩ := exists_pairs names written
  obtain ⟨entry, member, items, isList⟩ := wide
  obtain ⟨pair, among, represents⟩ := found entry member
  rw [isList] at represents
  exact ⟨_, ⟨pairs, named, ⟨pair, among, scalar?_of_represents_list represents⟩, rfl⟩,
    represents_map represent (distinct_of_nodup nodup)⟩

/-- Values of a kind have nodes. -/
theorem exists_nodes {kind : Node → Prop} {values : List Value}
    (written : ∀ v ∈ values, v.WrittenAs kind) :
    ∃ nodes, (∀ node ∈ nodes, kind node) ∧ List.Forall₂ Represents nodes values := by
  induction values with
  | nil => exact ⟨[], List.forall_mem_nil _, .nil⟩
  | cons v rest ih =>
    obtain ⟨⟨node, isKind, represents⟩, others⟩ := List.forall_mem_cons.mp written
    obtain ⟨nodes, areKind, represent⟩ := ih others
    exact ⟨node :: nodes, List.forall_mem_cons.mpr ⟨isKind, areKind⟩, .cons represents represent⟩

/-- Records are written as a table, and no records as an empty row. -/
theorem writtenAs_records {values : List Value}
    (written : ∀ v ∈ values, v.WrittenAs (IsRecord IsLeaf)) :
    (Value.list values).WrittenAs fun node => IsLeaf node ∨ IsTable node := by
  obtain ⟨nodes, records, represent⟩ := exists_nodes written
  refine ⟨_, ?_, represents_list represent⟩
  cases nodes with
  | nil => exact .inl (.inr ⟨[], List.forall_mem_nil _, rfl⟩)
  | cons first rest => exact .inr ⟨first, rest, records, rfl⟩

/-! ## Steps -/

namespace Step

/-- Contents under the names of their fields. -/
def entriesOf (contents : List (StepField × Value)) : List (Value × Value) :=
  contents.map fun (field, content) => (.text field.name, content)

theorem lookup?_entriesOf (contents : List (StepField × Value)) (field : StepField) :
    Value.lookup? (entriesOf contents) (.text field.name) =
      (contents.find? (·.1 == field)).map Prod.snd := by
  have same : (fun entry : Value × Value => entry.1.same (.text field.name)) ∘
      (fun entry : StepField × Value => (.text entry.1.name, entry.2)) = (·.1 == field) := by
    funext entry
    rw [Bool.eq_iff_iff]
    simp [Value.same, StepField.name_injective.eq_iff]
  rw [Value.lookup?, entriesOf, List.find?_map, same, Option.map_map]
  rfl

/-- The entries of a step are read field by field. -/
theorem ofEntries_entriesOf {contents : List (StepField × Value)} {kind : Value}
    (isKind : contents.find? (·.1 == .kind) = some (.kind, kind)) :
    ofEntries (entriesOf contents) =
      buildFrom fun field => (contents.find? (·.1 == field)).map Prod.snd := by
  have known : ((entriesOf contents).map Prod.fst).filter (fun key => !isField key) = [] := by
    refine List.filter_eq_nil_iff.mpr (List.forall_mem_map.mpr (List.forall_mem_map.mpr ?_))
    intro entry _
    simp [isField, StepField.ofName?_name]
  rw [ofEntries, known]
  simp only [lookup?_entriesOf, isKind]
  rfl

/-- A built step is written as a record and read back from its mapping. -/
theorem Canonical.toMap {s : Step} (canonical : s.Canonical) : ∃ v, Step.toMap s = .ok v ∧
    v.WrittenAs (IsRecord IsLeaf) ∧ Step.read v = .ok s := by
  obtain ⟨kind, startDelay, endDelay, timeMode, time, strengthMode, strength⟩ := s
  obtain ⟨⟨kind, isKind, rfl⟩, ⟨start, startAdmitted, rfl⟩, ⟨stop, stopAdmitted, rfl⟩,
    ⟨timeMode, isTimeMode, rfl⟩, ⟨time, timeSize, timeAdmitted, rfl⟩,
    ⟨strengthMode, isStrengthMode, rfl⟩, ⟨strength, strengthSize, strengthAdmitted, rfl⟩⟩ := canonical
  refine ⟨_, rfl, ?_, ?_⟩
  · refine writtenAs_namedMap ?_ ?_ ?_ ?_
    · exact List.forall_mem_map.mpr fun entry _ => entry.1.isNameText
    · show (StepField.all.map StepField.name).Nodup
      decide
    · simp only [List.map_cons, List.map_nil, List.forall_mem_cons]
      exact ⟨(writtenAs_choice kind).imp .inl, (writtenAs_number startAdmitted).imp .inl,
        (writtenAs_number stopAdmitted).imp .inl, (writtenAs_choice timeMode).imp .inl,
        (writtenAs_numbers timeAdmitted).imp .inr, (writtenAs_choice strengthMode).imp .inl,
        (writtenAs_numbers strengthAdmitted).imp .inr, List.forall_mem_nil _⟩
    · exact ⟨_, .tail _ (.tail _ (.tail _ (.tail _ (.head _)))), _, rfl⟩
  · refine (@ofEntries_entriesOf [(.kind, .text kind.name), (.startDelay, .ofNumber start),
      (.endDelay, .ofNumber stop), (.timeMode, .text timeMode.name), (.time, .list (time.map .ofNumber)),
      (.strengthMode, .text strengthMode.name), (.strength, .list (strength.map .ofNumber))] _ rfl).trans ?_
    show Step.build ⟨.text kind.name, .ofNumber start, .ofNumber stop, .text timeMode.name,
      .list (time.map .ofNumber), .text strengthMode.name, .list (strength.map .ofNumber)⟩ = _
    simp only [Step.build, bind_eq_ok_iff, pure_eq_ok_iff]
    exact ⟨kind, readChoice_name _ isKind, start, readNumber_ofNumber _ startAdmitted, stop,
      readNumber_ofNumber _ stopAdmitted, timeMode, readChoice_name _ isTimeMode, time,
      readRange_of_sequence _ timeSize timeAdmitted (.inl rfl), strengthMode,
      readChoice_name _ isStrengthMode, strength,
      readRange_of_sequence _ strengthSize strengthAdmitted (.inl rfl), rfl⟩

end Step

/-- Built steps are written as records and read back from their mappings. -/
theorem exists_itemsToMap (name : String) {steps : List Step} (canonical : ∀ step ∈ steps, step.Canonical) :
    ∃ values, itemsToMap (steps.map .step) = .ok values ∧
      (∀ v ∈ values, v.WrittenAs (IsRecord IsLeaf)) ∧
        ∀ index, readStepsFrom name index values = .ok steps := by
  induction steps with
  | nil => exact ⟨[], rfl, List.forall_mem_nil _, fun _ => rfl⟩
  | cons step rest ih =>
    obtain ⟨first, others⟩ := List.forall_mem_cons.mp canonical
    obtain ⟨v, isMap, isRecord, read⟩ := first.toMap
    obtain ⟨values, areMaps, areRecords, readOthers⟩ := ih others
    refine ⟨v :: values, ?_, List.forall_mem_cons.mpr ⟨isRecord, areRecords⟩, fun index => ?_⟩
    · rw [List.map_cons, itemsToMap, itemToMap, isMap, areMaps]
      rfl
    · rw [readStepsFrom, read]
      simp only [readOthers]
      rfl

/-! ## Configurations -/

/-- What a mapping has under a field. -/
def fieldContent : SettingField → Value → Except Fault Value
  | .steps _, v => sequenceContent v
  | _, v => .ok (scalarContent v)

/-- What a field holds is written as part of a sheet and read back from there. -/
theorem SettingField.Holds.fieldContent {field : SettingField} {v : Value} (holds : field.Holds v) :
    ∃ content, fieldContent field v = .ok content ∧
      content.WrittenAs (fun node => IsLeaf node ∨ IsTable node) ∧ readField field content = .ok v := by
  have number (isNumber : v.IsNumber) : scalarContent v = v ∧
      v.WrittenAs (fun node => IsLeaf node ∨ IsTable node) := by
    obtain ⟨n, admitted, rfl⟩ := isNumber
    refine ⟨?_, (writtenAs_number admitted).imp fun isCell => .inl (.inl isCell)⟩
    cases n <;> rfl
  have read := holds.read
  cases field with
  | alert =>
    obtain ⟨c, isAlert, rfl⟩ := holds
    refine ⟨.text c.name, rfl, (writtenAs_choice c).imp fun isCell => .inl (.inl isCell), ?_⟩
    simp only [readField, readChoice_name _ isAlert]
    rfl
  | steps which =>
    obtain ⟨steps, rfl, canonical⟩ := holds
    obtain ⟨values, areMaps, areRecords, readAll⟩ := exists_itemsToMap which.name canonical
    refine ⟨.list values, ?_, writtenAs_records areRecords, ?_⟩
    · show (itemsToMap (steps.map .step)).map Value.list = _
      rw [areMaps]
      rfl
    · show (readStepsFrom which.name 0 values).map stepsValue = _
      rw [readAll]
      rfl
  | _ =>
    obtain ⟨same, written⟩ := number holds
    exact ⟨v, congrArg Except.ok same, written, read⟩

namespace Settings

theorem readEntries_fields {given held : SettingField → Value}
    (read : ∀ field, readField field (given field) = .ok (held field)) (fields : List SettingField) :
    readEntries (fields.map fun field => (.text field.name, given field)) =
      .ok (fields.map fun field => (field, held field)) := by
  induction fields with
  | nil => rfl
  | cons field rest ih =>
    simp only [List.map_cons, readEntries, SettingField.ofName?_name, read, ih]
    rfl

/-- A mapping from the names of all fields is read field by field. -/
theorem readFields_fields {given held : SettingField → Value}
    (read : ∀ field, readField field (given field) = .ok (held field)) :
    readFields (.map (SettingField.all.map fun field => (.text field.name, given field))) =
      .ok (SettingField.all.map fun field => (field, held field)) := by
  have known : ((SettingField.all.map fun field => ((.text field.name : Value), given field)).map
      Prod.fst).filter (fun key => !isField key) = [] := by
    refine List.filter_eq_nil_iff.mpr (List.forall_mem_map.mpr (List.forall_mem_map.mpr ?_))
    intro field _
    simp [isField, SettingField.ofName?_name]
  rw [readFields]
  simp only [Value.entries?, Value.exposed, known, readEntries_fields read]

/-- A configuration is written field by field. -/
theorem toMap_of_contents {s : Settings} {given : SettingField → Value}
    (isContent : ∀ field, fieldContent field (s.get field) = .ok (given field)) :
    s.toMap = .ok (namedMap (SettingField.all.map fun field => (field.name, given field))) := by
  have scalar {field : SettingField} (isScalar : fieldContent field (s.get field) =
      .ok (scalarContent (s.get field))) : scalarContent (s.get field) = given field :=
    Except.ok.inj (isScalar.symm.trans (isContent field))
  have corrections : sequenceContent s.corrections = _ := isContent (.steps .corrections)
  have affirmations : sequenceContent s.affirmations = _ := isContent (.steps .affirmations)
  have contents : [s.idleMin, s.idleMax, s.actionMin, s.actionMax, s.decibelMin, s.decibelMax,
      s.microphone, s.alert, s.shockMin, s.shockMax, s.vibeMin, s.vibeMax].map scalarContent ++
        [given (.steps .corrections), given (.steps .affirmations)] = SettingField.all.map given := by
    simp only [SettingField.all, List.map_cons, ← @scalar .idleMin rfl, ← @scalar .idleMax rfl,
      ← @scalar .actionMin rfl, ← @scalar .actionMax rfl, ← @scalar .decibelMin rfl,
      ← @scalar .decibelMax rfl, ← @scalar .microphone rfl, ← @scalar .alert rfl,
      ← @scalar .shockMin rfl, ← @scalar .shockMax rfl, ← @scalar .vibeMin rfl, ← @scalar .vibeMax rfl]
    rfl
  rw [toMap, settingsToMap, corrections, affirmations]
  show Except.ok (namedMap (List.zipWith (fun field content => (field.name, content)) SettingField.all
    (_ ++ [given (.steps .corrections), given (.steps .affirmations)]))) = _
  rw [contents, List.zipWith_map_right, List.zipWith_self]

/-- The mapping of a built configuration gives every field what it holds. -/
theorem Canonical.readFields_toMap {s : Settings} (canonical : s.Canonical) : ∃ v, s.toMap = .ok v ∧
    readFields v = .ok (SettingField.all.map fun field => (field, s.get field)) := by
  choose given isContent _ read using fun field => (canonical.holds field).fieldContent
  exact ⟨_, toMap_of_contents isContent, readFields_fields read⟩

/-- A built configuration is written as a sheet and read back from its mapping. -/
theorem Canonical.toMap {s : Settings} (canonical : s.Canonical) :
    ∃ v, s.toMap = .ok v ∧ v.WrittenAs IsSheet ∧ v.isGiven = true ∧ v.entries?.isSome = true ∧
      Settings.read v = .ok s := by
  choose given isContent written read using fun field => (canonical.holds field).fieldContent
  refine ⟨namedMap (SettingField.all.map fun field => (field.name, given field)),
    toMap_of_contents isContent, ?_, rfl, rfl, ?_⟩
  · refine writtenAs_namedMap ?_ ?_ ?_ ?_
    · exact List.forall_mem_map.mpr fun field _ => field.isNameText
    · show (SettingField.all.map SettingField.name).Nodup
      decide
    · exact List.forall_mem_map.mpr fun field _ => written field
    · refine ⟨_, List.mem_map_of_mem (SettingField.mem_all (.steps .corrections)), ?_⟩
      obtain ⟨steps, isSteps, _⟩ := canonical.steps .corrections
      have isList : sequenceContent (s.sequence .corrections) = _ := isContent (.steps .corrections)
      rw [isSteps] at isList
      obtain ⟨items, _, same⟩ := map_eq_ok_iff.mp isList
      exact ⟨items, same.symm⟩
  · show Settings.read (.map (SettingField.all.map fun field => (.text field.name, given field))) = _
    rw [Settings.read, readFields_fields read]
    show Settings.build (defaults.withFields _) = _
    rw [build_withFields_get, canonical.build]

end Settings

end TrainingCollar
