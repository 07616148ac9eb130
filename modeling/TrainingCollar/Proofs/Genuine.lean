import Mathlib.Data.List.InsertIdx
import TrainingCollar.Proofs.Coercion
import TrainingCollar.SettingsFile
import TrainingCollar.Store.Mutation

/-! # Genuine values

A value is genuine if every step and every configuration in it is built, at whatever depth it is
found. Nothing that is read from a genuine value is other than canonical, and documents hold genuine
values only, since they hold no step at all.
-/

namespace TrainingCollar

namespace Value

mutual

/-- Every step and every configuration in a value is built. -/
def Genuine : Value → Prop
  | .step s => Step.Built s
  | .settings s => Settings.Built s
  | .list items | .tuple items | .set items => AllGenuine items
  | .map entries => EntriesGenuine entries
  | .knot _ body => Genuine body
  | _ => True

/-- Each item is genuine. -/
def AllGenuine : List Value → Prop
  | [] => True
  | item :: rest => Genuine item ∧ AllGenuine rest

/-- Each entry is genuine. -/
def EntriesGenuine : List (Value × Value) → Prop
  | [] => True
  | entry :: rest => EntryGenuine entry ∧ EntriesGenuine rest

/-- Key and value are genuine. -/
def EntryGenuine : Value × Value → Prop
  | (key, value) => Genuine key ∧ Genuine value

end

theorem allGenuine_iff {items : List Value} : AllGenuine items ↔ ∀ v ∈ items, v.Genuine := by
  induction items with
  | nil => simp [AllGenuine]
  | cons item rest ih => rw [AllGenuine, ih, List.forall_mem_cons]

theorem entriesGenuine_iff {entries : List (Value × Value)} :
    EntriesGenuine entries ↔ ∀ entry ∈ entries, entry.1.Genuine ∧ entry.2.Genuine := by
  induction entries with
  | nil => simp [EntriesGenuine]
  | cons entry rest ih => rw [EntriesGenuine, ih, List.forall_mem_cons, EntryGenuine]

mutual

theorem Genuine.replace (anchor : String) {other : Value} (genuineOther : other.Genuine) :
    (v : Value) → v.Genuine → (Value.replace anchor other v).Genuine
  | .again name mapping, genuine => by
    rw [Value.replace]
    split
    · exact genuineOther
    · exact genuine
  | .knot name body, genuine => by
    rw [Value.replace]
    split
    · exact genuine
    · exact Genuine.replace anchor genuineOther body genuine
  | .list items, genuine => Genuine.replaceAll anchor genuineOther items genuine
  | .tuple items, genuine => Genuine.replaceAll anchor genuineOther items genuine
  | .set items, genuine => Genuine.replaceAll anchor genuineOther items genuine
  | .map entries, genuine => Genuine.replaceEntries anchor genuineOther entries genuine
  | .null, _ | .bool _, _ | .int _, _ | .float _, _ | .text _, _ | .bytes _, _ | .date _, _
  | .moment _, _ | .choice _, _ => trivial
  | .step _, genuine | .settings _, genuine => genuine

theorem Genuine.replaceAll (anchor : String) {other : Value} (genuineOther : other.Genuine) :
    (items : List Value) → AllGenuine items → AllGenuine (Value.replaceAll anchor other items)
  | [], _ => trivial
  | item :: rest, genuine =>
    ⟨Genuine.replace anchor genuineOther item genuine.1,
      Genuine.replaceAll anchor genuineOther rest genuine.2⟩

theorem Genuine.replaceEntries (anchor : String) {other : Value} (genuineOther : other.Genuine) :
    (entries : List (Value × Value)) → EntriesGenuine entries →
      EntriesGenuine (Value.replaceEntries anchor other entries)
  | [], _ => trivial
  | entry :: rest, genuine =>
    ⟨Genuine.replaceEntry anchor genuineOther entry genuine.1,
      Genuine.replaceEntries anchor genuineOther rest genuine.2⟩

theorem Genuine.replaceEntry (anchor : String) {other : Value} (genuineOther : other.Genuine) :
    (entry : Value × Value) → EntryGenuine entry →
      EntryGenuine (Value.replaceEntry anchor other entry)
  | (key, value), genuine =>
    ⟨Genuine.replace anchor genuineOther key genuine.1,
      Genuine.replace anchor genuineOther value genuine.2⟩

end

variable {v : Value}

theorem Genuine.exposed (genuine : v.Genuine) : v.exposed.Genuine := by
  cases v with
  | knot anchor body => exact Genuine.replace anchor (show Genuine (.knot anchor body) from genuine) body genuine
  | _ => exact genuine

theorem Genuine.items? (genuine : v.Genuine) {items : List Value} (isItems : v.items? = some items) :
    ∀ item ∈ items, item.Genuine := by
  have exposed := genuine.exposed
  unfold Value.items? at isItems
  split at isItems
  · next same =>
    rw [same] at exposed
    obtain rfl := Option.some.inj isItems
    exact allGenuine_iff.mp exposed
  · next same =>
    rw [same] at exposed
    obtain rfl := Option.some.inj isItems
    exact allGenuine_iff.mp exposed
  · next same =>
    rw [same] at exposed
    obtain rfl := Option.some.inj isItems
    exact allGenuine_iff.mp exposed
  · obtain rfl := Option.some.inj isItems
    exact List.forall_mem_map.mpr fun _ _ => trivial
  · obtain rfl := Option.some.inj isItems
    exact List.forall_mem_map.mpr fun _ _ => trivial
  · next same =>
    rw [same] at exposed
    obtain rfl := Option.some.inj isItems
    exact List.forall_mem_map.mpr fun entry member => (entriesGenuine_iff.mp exposed entry member).1
  · cases isItems

theorem Genuine.entries? (genuine : v.Genuine) {entries : List (Value × Value)}
    (isEntries : v.entries? = some entries) : EntriesGenuine entries := by
  have exposed := genuine.exposed
  unfold Value.entries? at isEntries
  split at isEntries
  · next same =>
    rw [same] at exposed
    obtain rfl := Option.some.inj isEntries
    exact exposed
  · cases isEntries

theorem items?_of_sequence? {items : List Value} (isSequence : v.sequence? = some items) :
    v.items? = some items := by
  unfold sequence? at isSequence
  unfold items?
  split at isSequence
  · next same => rwa [same]
  · next same => rwa [same]
  · cases isSequence

theorem Genuine.sequence? (genuine : v.Genuine) {items : List Value}
    (isItems : v.sequence? = some items) : ∀ item ∈ items, item.Genuine :=
  genuine.items? (items?_of_sequence? isItems)

/-- What holds of the keys and of the contents of entries holds after another one is entered. -/
theorem forall_mem_insert {isKey isContent : Value → Prop} {entries : List (Value × Value)}
    {key content : Value} (all : ∀ entry ∈ entries, isKey entry.1 ∧ isContent entry.2)
    (newKey : isKey key) (newContent : isContent content) :
    ∀ entry ∈ Value.insert entries key content, isKey entry.1 ∧ isContent entry.2 := by
  unfold Value.insert
  split
  · refine List.forall_mem_map.mpr fun entry member => ?_
    dsimp only
    split
    · exact ⟨(all entry member).1, newContent⟩
    · exact all entry member
  · exact List.forall_mem_append.mpr ⟨all, List.forall_mem_singleton.mpr ⟨newKey, newContent⟩⟩

/-- What holds of the keys and of the contents of entries holds after others are entered one by one. -/
theorem forall_mem_foldl_insert {α : Type} {isKey isContent : Value → Prop} {pairs : List α}
    {key content : α → Value} (new : ∀ pair ∈ pairs, isKey (key pair) ∧ isContent (content pair))
    {entries : List (Value × Value)} (all : ∀ entry ∈ entries, isKey entry.1 ∧ isContent entry.2) :
    ∀ entry ∈ pairs.foldl (fun entries pair => Value.insert entries (key pair) (content pair)) entries,
      isKey entry.1 ∧ isContent entry.2 := by
  induction pairs generalizing entries with
  | nil => exact all
  | cons pair rest ih =>
    obtain ⟨first, others⟩ := List.forall_mem_cons.mp new
    exact ih others (forall_mem_insert all first.1 first.2)

/-- Entering genuine keys and values one after the other. -/
theorem EntriesGenuine.foldl_insert {α : Type} {pairs : List α} {key value : α → Value}
    (new : ∀ pair ∈ pairs, EntryGenuine (key pair, value pair)) {entries : List (Value × Value)}
    (genuine : EntriesGenuine entries) : EntriesGenuine
      (pairs.foldl (fun entries pair => Value.insert entries (key pair) (value pair)) entries) :=
  entriesGenuine_iff.mpr (forall_mem_foldl_insert new (entriesGenuine_iff.mp genuine))

end Value

/-! ## Reading genuine values -/

theorem Step.canonical_of_read {v : Value} {s : Step} (genuine : v.Genuine)
    (read : Step.read v = .ok s) : s.Canonical := by
  have exposed := genuine.exposed
  unfold Step.read at read
  split at read
  · next same =>
    rw [same] at exposed
    cases read
    exact Step.built_iff.mp exposed
  · exact canonical_of_ofEntries read
  · cases read

theorem canonical_of_readStepsFrom {name : String} {index : Nat} {items : List Value}
    {steps : List Step} (genuine : ∀ item ∈ items, item.Genuine)
    (read : readStepsFrom name index items = .ok steps) : ∀ step ∈ steps, step.Canonical := by
  induction items generalizing index steps with
  | nil =>
    cases read
    exact List.forall_mem_nil _
  | cons item rest ih =>
    obtain ⟨first, others⟩ := List.forall_mem_cons.mp genuine
    unfold readStepsFrom at read
    split at read
    · cases read
    · cases read
    · next step readStep =>
      obtain ⟨later, readLater, rfl⟩ := map_eq_ok_iff.mp read
      exact List.forall_mem_cons.mpr ⟨Step.canonical_of_read first readStep, ih others readLater⟩

theorem stepsValue_injective {steps others : List Step} (same : stepsValue steps = stepsValue others) :
    steps = others := by
  have items : steps.map Value.step = others.map Value.step := Value.list.inj same
  exact (List.map_inj_right fun _ _ equal => Value.step.inj equal).mp items

theorem SettingField.holds_of_genuine {field : SettingField} {given v : Value}
    (genuine : given.Genuine) (read : readField field given = .ok v) : field.Holds v := by
  refine holds_of_readField read ?_
  rintro which rfl steps rfl
  obtain ⟨others, readOthers, same⟩ := map_eq_ok_iff.mp read
  obtain rfl := stepsValue_injective same
  unfold readSteps at readOthers
  split at readOthers
  · next items isItems => exact canonical_of_readStepsFrom (genuine.sequence? isItems) readOthers
  · cases readOthers

namespace Settings

variable {s : Settings}

/-- What all contents have that fields are given, all contents have that are read from entries. -/
theorem forall_of_readEntries {holds : SettingField → Value → Prop} {entries : List (Value × Value)}
    {contents : List (SettingField × Value)}
    (reads : ∀ entry ∈ entries, ∀ field content, readField field entry.2 = .ok content →
      holds field content)
    (read : readEntries entries = .ok contents) : ∀ content ∈ contents, holds content.1 content.2 := by
  induction entries generalizing contents with
  | nil =>
    cases read
    exact List.forall_mem_nil _
  | cons entry rest ih =>
    obtain ⟨key, value⟩ := entry
    obtain ⟨first, others⟩ := List.forall_mem_cons.mp reads
    unfold readEntries at read
    split at read
    · split at read
      · simp only [bind_eq_ok_iff, pure_eq_ok_iff] at read
        obtain ⟨content, readContent, later, readLater, rfl⟩ := read
        exact List.forall_mem_cons.mpr ⟨first _ _ readContent, ih others readLater⟩
      · exact ih others read
    · exact ih others read

theorem exists_readEntries_of_readFields {v : Value} {contents : List (SettingField × Value)}
    (read : readFields v = .ok contents) :
    ∃ entries, v.entries? = some entries ∧ readEntries entries = .ok contents := by
  unfold readFields at read
  split at read
  · cases read
  · next entries isEntries =>
    split at read
    · exact ⟨entries, isEntries, read⟩
    · unfold refuseUnknown at read
      split at read <;> cases read

theorem holds_of_readFields {v : Value} {contents : List (SettingField × Value)}
    (genuine : v.Genuine) (read : readFields v = .ok contents) :
    ∀ content ∈ contents, content.1.Holds content.2 := by
  obtain ⟨entries, isEntries, readEntries⟩ := exists_readEntries_of_readFields read
  have genuineAll := Value.entriesGenuine_iff.mp (genuine.entries? isEntries)
  have all : ∀ entry ∈ entries, ∀ field content, readField field entry.2 = .ok content →
      SettingField.Holds field content := by
    intro entry member field content
    exact SettingField.holds_of_genuine (genuineAll entry member).2
  exact forall_of_readEntries all readEntries

/-- What every field has, and new content has in its field, every field has with the new content. -/
theorem forall_set {holds : SettingField → Value → Prop} {field : SettingField} {v : Value}
    (before : ∀ other, holds other (s.get other)) (new : holds field v) (other : SettingField) :
    holds other ((s.set field v).get other) := by
  by_cases same : other = field
  · rw [same, SettingsOf.get_set_self]
    exact new
  · rw [SettingsOf.get_set_of_ne _ _ same]
    exact before other

theorem forall_withFields {holds : SettingField → Value → Prop}
    {contents : List (SettingField × Value)} (before : ∀ field, holds field (s.get field))
    (new : ∀ content ∈ contents, holds content.1 content.2) :
    ∀ field, holds field ((s.withFields contents).get field) := by
  induction contents generalizing s with
  | nil => exact before
  | cons content rest ih =>
    obtain ⟨first, others⟩ := List.forall_mem_cons.mp new
    exact ih (forall_set before first) others

theorem Canonical.set (canonical : s.Canonical) {field : SettingField} {v : Value}
    (holds : field.Holds v) : Canonical (s.set field v) :=
  ⟨forall_set canonical.holds holds, (SettingsOf.sharing_set ..).trans canonical.alone⟩

theorem Canonical.withFields (canonical : s.Canonical) {contents : List (SettingField × Value)}
    (holds : ∀ content ∈ contents, content.1.Holds content.2) : (s.withFields contents).Canonical :=
  ⟨forall_withFields canonical.holds holds, (sharing_withFields s contents).trans canonical.alone⟩

theorem defaults_canonical : Canonical defaults := by
  have number {n : Int} (near : (Binary64.ofInt? n).isSome = true) : Value.IsNumber (.int n) :=
    ⟨.int n, near, rfl⟩
  refine ⟨fun field => ?_, rfl⟩
  rcases field with _ | _ | _ | _ | _ | _ | _ | _ | _ | _ | _ | _ | ⟨_ | _⟩
  case alert => exact ⟨_, rfl, rfl⟩
  case steps.corrections => exact ⟨[], rfl, List.forall_mem_nil _⟩
  case steps.affirmations => exact ⟨[], rfl, List.forall_mem_nil _⟩
  all_goals exact number (by decide +kernel)

theorem canonical_of_read {v : Value} (genuine : v.Genuine) (read : Settings.read v = .ok s) :
    s.Canonical := by
  simp only [Settings.read, bind_eq_ok_iff] at read
  obtain ⟨contents, readContents, built⟩ := read
  have filled := defaults_canonical.withFields (holds_of_readFields genuine readContents)
  have same := filled.build.symm.trans built
  cases same
  exact filled

end Settings

/-! ## Documents -/

namespace Yaml

/-- A value that consists of nothing else. -/
def IsAtom : Value → Prop
  | .null | .bool _ | .int _ | .float _ | .text _ | .bytes _ | .date _ | .moment _ => True
  | _ => False

theorem isAtom_of_readScalar {tag : Tag} {s : List Char} {v : Value}
    (read : readScalar tag s = .ok v) : IsAtom v := by
  unfold readScalar at read
  split at read
  case h_1 | h_5 =>
    cases read
    trivial
  case h_2 | h_3 | h_4 | h_6 =>
    obtain ⟨_, _, rfl⟩ := map_eq_ok_iff.mp read
    trivial
  case h_7 =>
    unfold readTimestamp at read
    split at read
    · cases read
    · dsimp only at read
      split at read
      · split at read
        · cases read
          trivial
        · cases read
      · split at read
        · cases read
          trivial
        · cases read
  case h_8 => cases read

theorem genuine_of_readScalar {tag : Tag} {s : List Char} {v : Value}
    (read : readScalar tag s = .ok v) : v.Genuine := by
  have atom := isAtom_of_readScalar read
  cases v with
  | null | bool | int | float | text | bytes | date | moment => trivial
  | _ => cases atom

namespace Node

theorem genuine_of_readText {tag : Tag} {text : Option (List Char)} {v : Value}
    (read : readText tag text = .ok v) : v.Genuine := by
  unfold readText at read
  split at read
  · cases read
  · exact genuine_of_readScalar read
  · cases read

theorem genuine_of_readKey {node : Node} {v : Value} (read : readKey node = .ok v) : v.Genuine := by
  unfold readKey at read
  split at read
  · exact genuine_of_readScalar read
  · split at read
    · cases read
    · exact genuine_of_readText read
  · cases read

theorem genuine_knotted {anchor : Option String} {v : Value} (genuine : v.Genuine) :
    (knotted anchor v).Genuine := by
  unfold knotted
  split
  · split <;> exact genuine
  · exact genuine

theorem entriesGenuine_of_mapOf {pairs entries : List (Value × Value)}
    (genuine : Value.EntriesGenuine pairs) (made : mapOf pairs = .ok entries) :
    Value.EntriesGenuine entries := by
  unfold mapOf Value.ofPairs? at made
  split at made
  · next isEntries =>
    cases made
    split at isEntries
    · cases isEntries
      exact .foldl_insert (Value.entriesGenuine_iff.mp genuine) trivial
    · cases isEntries
  · cases made

mutual

theorem genuine_of_build (around : Around) : (node : Node) → {v : Value} →
    build around node = .ok v → v.Genuine
  | .alias name, v, built => by
    cases built
    trivial
  | .scalar _ tag text, v, built => genuine_of_readScalar built
  | .sequence anchor tag items, v, built => by
    unfold build at built
    split at built
    · obtain ⟨values, isValues, rfl⟩ := map_eq_ok_iff.mp built
      exact genuine_knotted (Value.allGenuine_iff.mpr (genuine_of_buildItems _ items isValues))
    · obtain ⟨values, isValues, rfl⟩ := map_eq_ok_iff.mp built
      exact genuine_knotted (Value.allGenuine_iff.mpr (genuine_of_buildTuples _ items isValues))
    · obtain ⟨values, isValues, rfl⟩ := map_eq_ok_iff.mp built
      exact genuine_knotted (Value.allGenuine_iff.mpr (genuine_of_buildTuples _ items isValues))
    · cases built
  | .mapping anchor tag pairs, v, built => by
    unfold build at built
    split at built
    · simp only [bind_eq_ok_iff, pure_eq_ok_iff] at built
      obtain ⟨values, isValues, entries, isEntries, rfl⟩ := built
      exact genuine_knotted
        (entriesGenuine_of_mapOf (genuine_of_buildPairs _ pairs isValues) isEntries)
    · simp only [bind_eq_ok_iff, pure_eq_ok_iff] at built
      obtain ⟨values, isValues, entries, isEntries, rfl⟩ := built
      have genuine := entriesGenuine_of_mapOf (genuine_of_buildPairs _ pairs isValues) isEntries
      refine Value.allGenuine_iff.mpr (List.forall_mem_map.mpr ?_)
      exact fun entry member => (Value.entriesGenuine_iff.mp genuine entry member).1
    · exact genuine_of_readText built

theorem genuine_of_buildItems (around : Around) : (items : List Node) → {values : List Value} →
    buildItems around items = .ok values → ∀ v ∈ values, v.Genuine
  | [], values, built => by
    cases built
    exact List.forall_mem_nil _
  | item :: rest, values, built => by
    simp only [buildItems, bind_eq_ok_iff, pure_eq_ok_iff] at built
    obtain ⟨first, isFirst, others, isOthers, rfl⟩ := built
    exact List.forall_mem_cons.mpr
      ⟨genuine_of_build around item isFirst, genuine_of_buildItems around rest isOthers⟩

theorem genuine_of_buildTuples (around : Around) : (items : List Node) → {values : List Value} →
    buildTuples around items = .ok values → ∀ v ∈ values, v.Genuine
  | [], values, built => by
    cases built
    exact List.forall_mem_nil _
  | .mapping _ _ [(key, value)] :: rest, values, built => by
    simp only [buildTuples, bind_eq_ok_iff, pure_eq_ok_iff] at built
    obtain ⟨first, isFirst, second, isSecond, others, isOthers, rfl⟩ := built
    exact List.forall_mem_cons.mpr
      ⟨⟨genuine_of_build around key isFirst, genuine_of_build around value isSecond, trivial⟩,
        genuine_of_buildTuples around rest isOthers⟩
  | .alias _ :: _, _, built | .scalar _ _ _ :: _, _, built | .sequence _ _ _ :: _, _, built
  | .mapping _ _ [] :: _, _, built | .mapping _ _ (_ :: _ :: _) :: _, _, built => by
    simp [buildTuples] at built

theorem genuine_of_buildPairs (around : Around) : (pairs : List (Node × Node)) →
    {values : List (Value × Value)} → buildPairs around pairs = .ok values →
    Value.EntriesGenuine values
  | [], values, built => by
    cases built
    trivial
  | (key, value) :: rest, values, built => by
    simp only [buildPairs, bind_eq_ok_iff, pure_eq_ok_iff] at built
    obtain ⟨first, isFirst, second, isSecond, others, isOthers, rfl⟩ := built
    exact ⟨⟨genuine_of_readKey isFirst, genuine_of_build around value isSecond⟩,
      genuine_of_buildPairs around rest isOthers⟩

end

end Node

/-- The value of a document is null, or it is built from a node. -/
theorem exists_build_of_readDocument {text : List Char} {v : Value} (read : readDocument text = .ok v) :
    v = .null ∨ ∃ root : Node, root.build [] = .ok v := by
  simp only [readDocument, bind_eq_ok_iff] at read
  obtain ⟨root?, _, read⟩ := read
  cases root? with
  | none =>
    cases read
    exact .inl rfl
  | some root =>
    simp only [Node.content, bind_eq_ok_iff] at read
    obtain ⟨⟨root, _⟩, _, built⟩ := read
    dsimp only at built
    split at built
    · cases built
    · exact .inr ⟨_, built⟩

theorem genuine_of_readDocument {text : List Char} {v : Value} (read : readDocument text = .ok v) :
    v.Genuine := by
  rcases exists_build_of_readDocument read with rfl | ⟨root, built⟩
  · trivial
  · exact root.genuine_of_build [] built

end Yaml

/-- What is loaded was read from a genuine value, and is valid. -/
theorem Settings.exists_read_of_load {files : FileTree} {path : Path} {s : Settings}
    (loaded : (Settings.load files path).outcome = .ok s) :
    ∃ given : Value, given.Genuine ∧ Settings.read given = .ok s ∧ s.Valid := by
  unfold Settings.load at loaded
  split at loaded
  · next settings read =>
    cases loaded
    simp only [readFrom, bind_eq_ok_iff] at read
    obtain ⟨present, _, read⟩ := read
    split at read
    · simp only [bind_eq_ok_iff] at read
      obtain ⟨text, _, content, isContent, described⟩ := read
      have genuine : (if content.isGiven then content else .map []).Genuine := by
        split
        · exact Yaml.genuine_of_readDocument isContent
        · trivial
      unfold ofDocument at described
      dsimp only at described
      generalize (if content.isGiven then content else .map []) = given at genuine described
      split at described
      · cases described
      · simp only [bind_eq_ok_iff, pure_eq_ok_iff] at described
        obtain ⟨_, isRead, _, valid, rfl⟩ := described
        exact ⟨given, genuine, isRead, valid⟩
    · cases read
  · cases loaded

/-- A configuration that is loaded from a file is as if built. -/
theorem Settings.canonical_of_load {files : FileTree} {path : Path} {s : Settings}
    (loaded : (Settings.load files path).outcome = .ok s) : s.Canonical := by
  obtain ⟨given, genuine, isRead, _⟩ := Settings.exists_read_of_load loaded
  exact canonical_of_read genuine isRead

theorem Settings.valid_of_load {files : FileTree} {path : Path} {s : Settings}
    (loaded : (Settings.load files path).outcome = .ok s) : s.Valid := by
  obtain ⟨_, _, _, valid⟩ := Settings.exists_read_of_load loaded
  exact valid

/-! ## Mutations -/

/-- Every step and every configuration that a mutation is given is built. -/
def Mutation.Genuine : Mutation → Prop
  | update changes fields => changes.Genuine ∧ ∀ field ∈ fields, field.2.Genuine
  | replace settings => settings.Genuine
  | add _ step => step.Genuine
  | remove .. => True

theorem genuine_of_pairsOf {items : List Value} {pairs : List (Value × Value)}
    (genuine : ∀ item ∈ items, item.Genuine) (read : pairsOf items = .ok pairs) :
    Value.EntriesGenuine pairs := by
  induction items generalizing pairs with
  | nil =>
    cases read
    trivial
  | cons item rest ih =>
    obtain ⟨first, others⟩ := List.forall_mem_cons.mp genuine
    simp only [pairsOf, bind_eq_ok_iff, pure_eq_ok_iff] at read
    obtain ⟨pair, isPair, later, isLater, rfl⟩ := read
    refine ⟨?_, ih others isLater⟩
    unfold pairOf at isPair
    split at isPair
    · cases isPair
    · next key value isItems =>
      have parts := first.items? isItems
      split at isPair
      · cases isPair
        exact ⟨parts key (by simp), parts value (by simp)⟩
      · cases isPair
    · cases isPair

theorem genuine_of_entriesOf {changes : Value} {entries : List (Value × Value)}
    (genuine : changes.Genuine) (read : entriesOf changes = .ok entries) :
    Value.EntriesGenuine entries := by
  unfold entriesOf at read
  split at read
  · cases read
    trivial
  · split at read
    · next isEntries =>
      cases read
      exact genuine.entries? isEntries
    · next items _ isItems =>
      simp only [bind_eq_ok_iff, pure_eq_ok_iff] at read
      obtain ⟨pairs, isPairs, rfl⟩ := read
      have all := genuine_of_pairsOf (genuine.items? isItems) isPairs
      exact .foldl_insert (Value.entriesGenuine_iff.mp all) trivial
    · cases read

namespace Settings

variable {live : Settings}

theorem canonical_of_merged (canonical : live.Canonical) {entries : List (Value × Value)}
    {changed : List SettingField} {candidate : Settings} (genuine : Value.EntriesGenuine entries)
    (merged : live.merged entries = .ok (changed, candidate)) : candidate.Canonical := by
  simp only [Settings.merged, ↓check_eq_ok_iff, bind_eq_ok_iff, pure_eq_ok_iff,
    Prod.mk.injEq] at merged
  obtain ⟨contents, read, _, built, _, _, rfl⟩ := merged
  have genuineMap : Value.Genuine (.map entries) := genuine
  have filled := canonical.withFields (holds_of_readFields genuineMap read)
  have same := filled.build.symm.trans built
  cases same
  exact filled

theorem Canonical.withSteps (canonical : live.Canonical) {which : Sequence}
    {edit : Edit} {changed : Settings} (edited : live.withSteps which edit = .ok changed)
    (steps : ∀ steps : List Step, (∀ step ∈ steps, step.Canonical) →
      ∃ others : List Step, edit.items (steps.map .step) = others.map .step ∧
        ∀ step ∈ others, step.Canonical) : changed.Canonical := by
  obtain ⟨before, isBefore, all⟩ := canonical.steps which
  obtain ⟨after, isAfter, allAfter⟩ := steps before all
  unfold Settings.withSteps at edited
  rw [isBefore] at edited
  cases edited
  rw [withList_of_alone canonical.alone]
  exact canonical.set ⟨after, congrArg Value.list isAfter, allAfter⟩

theorem canonical_of_attemptUpdate (canonical : live.Canonical) {changes : Value}
    {fields : List (String × Value)} (genuine : (Mutation.update changes fields).Genuine) :
    (live.attemptUpdate changes fields).live.Canonical := by
  obtain ⟨changesGenuine, fieldsGenuine⟩ := genuine
  unfold attemptUpdate
  split
  · exact canonical
  · next entries isEntries =>
    have new : ∀ field ∈ fields, Value.EntryGenuine (.text field.1, field.2) :=
      fun field member => ⟨trivial, fieldsGenuine field member⟩
    have all := Value.EntriesGenuine.foldl_insert new (genuine_of_entriesOf changesGenuine isEntries)
    dsimp only
    split
    · next merged => exact canonical_of_merged canonical all merged
    · split
      · rw [Attempt.live_rejected]
        exact canonical
      · exact canonical

theorem canonical_of_attemptReplace (canonical : live.Canonical) {replacement : Value}
    (genuine : replacement.Genuine) : (live.attemptReplace replacement).live.Canonical := by
  unfold attemptReplace
  split
  · split
    · exact built_iff.mp genuine
    · rw [Attempt.live_rejected]
      exact canonical
  · exact canonical

theorem canonical_of_attemptAdd (canonical : live.Canonical) {key step : Value}
    (genuine : step.Genuine) : (live.attemptAdd key step).live.Canonical := by
  unfold attemptAdd
  split
  · exact canonical
  · next which new size prepared =>
    simp only [prepareAdd, bind_eq_ok_iff, pure_eq_ok_iff, Prod.mk.injEq] at prepared
    obtain ⟨_, _, read, isRead, _, _, rfl, rfl, rfl⟩ := prepared
    have newCanonical := Step.canonical_of_read genuine isRead
    dsimp only
    split
    · rw [Attempt.live_rejected]
      exact canonical
    · split
      · exact canonical
      · next edit =>
        rw [Attempt.live_edited]
        refine canonical.withSteps edit fun steps all => ⟨steps ++ [read], by simp [Edit.items], ?_⟩
        exact List.forall_mem_append.mpr ⟨all, List.forall_mem_singleton.mpr newCanonical⟩

theorem canonical_of_attemptRemove (canonical : live.Canonical) (key index : Value) :
    (live.attemptRemove key index).live.Canonical := by
  unfold attemptRemove
  split
  · exact canonical
  · next which position removed _ =>
    split
    · exact canonical
    · next edit =>
      rw [Attempt.live_edited]
      refine canonical.withSteps edit fun steps all =>
        ⟨steps.eraseIdx position, List.eraseIdx_map .., ?_⟩
      exact fun step member => all step (List.mem_of_mem_eraseIdx member)

end Settings

/-- A genuine mutation of a canonical configuration leaves a canonical one. -/
theorem Mutation.Genuine.canonical {mutation : Mutation} (genuine : mutation.Genuine)
    {live : Settings} (canonical : live.Canonical) : (mutation.attempt live).live.Canonical := by
  cases mutation with
  | update changes fields => exact Settings.canonical_of_attemptUpdate canonical genuine
  | replace settings => exact Settings.canonical_of_attemptReplace canonical genuine
  | add key step => exact Settings.canonical_of_attemptAdd canonical genuine
  | remove key index => exact Settings.canonical_of_attemptRemove canonical key index

end TrainingCollar
