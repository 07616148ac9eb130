import TrainingCollar.Proofs.Merging
import TrainingCollar.Proofs.SettingsFile

/-! # Loading

A settings file is accepted for what its document holds: nothing, or what counts as nothing, stands for
the defaults, and a mapping is merged over them and has to make a valid configuration
(`Settings.load_accepts`). No text is the key of two entries of a mapping that was read from a document, so
that merging does not depend on the order in which the entries were written.
-/

namespace TrainingCollar

/-! ## Keys of a document -/

namespace Value

variable {v other : Value} {entries : List (Value × Value)} {anchor name : String}

theorem replace_eq_text_iff (notText : other ≠ .text name) :
    replace anchor other v = .text name ↔ v = .text name := by
  cases v with
  | again mentioned =>
    rw [replace]
    split
    · exact iff_of_false notText nofun
    · rfl
  | knot inner body =>
    rw [replace]
    split
    · rfl
    · exact iff_of_false nofun nofun
  | _ => simp only [replace, reduceCtorEq]

theorem replaceEntries_eq_map (anchor : String) (other : Value) (entries : List (Value × Value)) :
    replaceEntries anchor other entries = entries.map (replaceEntry anchor other) := by
  induction entries with
  | nil => rfl
  | cons entry rest ih => rw [replaceEntries, ih, List.map_cons]

/-- Untying a knot makes no key a text that was none. -/
theorem OnceNamed.replaceEntries (once : OnceNamed entries) (notText : ∀ name, other ≠ .text name) :
    OnceNamed (Value.replaceEntries anchor other entries) := by
  rw [replaceEntries_eq_map]
  refine List.pairwise_map.mpr (once.imp fun {a b} apart name isName isAgain => ?_)
  have before (entry : Value × Value) (same : (replaceEntry anchor other entry).1 = .text name) :
      entry.1 = .text name := by
    obtain ⟨key, content⟩ := entry
    rw [replaceEntry] at same
    exact (replace_eq_text_iff (notText name)).mp same
  exact apart name (before a isName) (before b isAgain)

end Value

namespace Yaml

variable {text : List Char} {tag : Tag} {v : Value} {pairs entries : List (Value × Value)}

theorem entries?_of_readScalar (read : readScalar tag text = .ok v) : v.entries? = none := by
  have atom := isAtom_of_readScalar read
  cases v with
  | null | bool | int | float | text | bytes | date | moment => rfl
  | _ => cases atom

namespace Node

theorem entries?_knotted_list (anchor : Option String) (items : List Value) :
    (knotted anchor (.list items)).entries? = none := by
  unfold knotted
  split
  · split <;> rfl
  · rfl

theorem onceNamed_of_mapOf (made : mapOf pairs = .ok entries) : Value.OnceNamed entries := by
  unfold mapOf Value.ofPairs? at made
  split at made
  · next isEntries =>
    cases made
    split at isEntries
    · cases isEntries
      exact .foldl_insert pairs List.Pairwise.nil
    · cases isEntries
  · cases made

theorem onceNamed_knotted {anchor : Option String} {inside : List (Value × Value)}
    (once : Value.OnceNamed inside) (isMap : (knotted anchor (.map inside)).entries? = some entries) :
    Value.OnceNamed entries := by
  unfold knotted at isMap
  split at isMap
  · split at isMap
    · obtain rfl := Option.some.inj isMap
      exact once.replaceEntries fun _ => nofun
    · obtain rfl := Option.some.inj isMap
      exact once
  · obtain rfl := Option.some.inj isMap
    exact once

theorem onceNamed_of_build {around : Around} {node : Node} (built : build around node = .ok v)
    (isMap : v.entries? = some entries) : Value.OnceNamed entries := by
  have noMapping (missing : v.entries? = none) : Value.OnceNamed entries := by
    rw [missing] at isMap
    cases isMap
  match node with
  | .alias name =>
    cases built
    exact noMapping rfl
  | .scalar anchor tag text => exact noMapping (entries?_of_readScalar built)
  | .sequence anchor tag items =>
    refine noMapping ?_
    unfold build at built
    split at built
    case h_4 => cases built
    all_goals
      obtain ⟨values, _, rfl⟩ := map_eq_ok_iff.mp built
      exact entries?_knotted_list anchor values
  | .mapping anchor tag pairs =>
    unfold build at built
    split at built
    · simp only [bind_eq_ok_iff, pure_eq_ok_iff] at built
      obtain ⟨values, _, inside, made, rfl⟩ := built
      exact onceNamed_knotted (onceNamed_of_mapOf made) isMap
    · simp only [bind_eq_ok_iff, pure_eq_ok_iff] at built
      obtain ⟨values, _, inside, _, rfl⟩ := built
      exact noMapping rfl
    · unfold readText at built
      split at built
      · cases built
      · exact noMapping (entries?_of_readScalar built)
      · cases built

end Node

/-- No text is the key of two entries of a document: the later one takes the place of the earlier. -/
theorem onceNamed_of_readDocument (read : readDocument text = .ok v)
    (isMap : v.entries? = some entries) : Value.OnceNamed entries := by
  rcases exists_build_of_readDocument read with rfl | ⟨_, built⟩
  · cases isMap
  · exact Node.onceNamed_of_build built isMap

end Yaml

/-! ## What is accepted -/

namespace Settings

variable {files : FileTree} {path : Path} {text : String} {s : Settings} {v : Value}
  {entries : List (Value × Value)}

/-- What counts as nothing describes the defaults. -/
theorem ofDocument_nothing (path : Path) (nothing : v.isGiven = false) :
    ofDocument path v = .ok defaults := by
  have isRead : read (.map []) = .ok defaults := by
    simp only [Settings.read, bind_eq_ok_iff]
    exact ⟨[], rfl, defaults_canonical.build⟩
  have notMissing : ¬(Value.map []).entries?.isNone = true := by decide
  simp only [ofDocument, nothing, Bool.false_eq_true, if_false]
  rw [if_neg notMissing, bind_eq_ok_iff]
  exact ⟨defaults, isRead, by rw [defaults_valid]; rfl⟩

theorem entries?_of_nothing (nothing : v.isGiven = false) (isMap : v.entries? = some entries) :
    entries = [] := by
  unfold Value.isGiven at nothing
  cases v with
  | map inside =>
    obtain rfl := Option.some.inj isMap
    simpa using nothing
  | knot => cases nothing
  | _ => cases isMap

/-- The content of a document is refused as a whole if it is neither a mapping nor nothing. -/
theorem ofDocument_noMapping (path : Path) (given : v.isGiven = true) (noMap : v.entries? = none) :
    ofDocument path v = .error (.invalid (.noMapping path.text)) := by
  simp only [ofDocument, given, if_true, noMap, Option.isNone_none]
  rfl

theorem ofDocument_map (path : Path) (given : v.isGiven = true) (isMap : v.entries? = some entries)
    (once : Value.OnceNamed entries) :
    ofDocument path v = .ok s ↔ s.Merges defaults entries ∧ s.Valid := by
  have notMissing : ¬v.entries?.isNone = true := by rw [isMap]; exact Bool.false_ne_true
  simp only [ofDocument, given, if_true]
  rw [if_neg notMissing, ← read_eq_ok_iff isMap once]
  simp only [bind_eq_ok_iff, pure_eq_ok_iff]
  constructor
  · rintro ⟨settings, isRead, _, valid, rfl⟩
    exact ⟨isRead, valid⟩
  · rintro ⟨isRead, valid⟩
    exact ⟨s, isRead, (), valid, rfl⟩

theorem load_outcome (files : FileTree) (path : Path) :
    (load files path).outcome = readFrom files path := by
  unfold load
  split <;> next same => rw [same]

/-- What is loaded was in the file. -/
theorem holds_of_load (loaded : (load files path).outcome = .ok s) : ∃ held, files.Holds path held := by
  rw [load_outcome, readFrom, bind_eq_ok_iff] at loaded
  obtain ⟨present, _, loaded⟩ := loaded
  split at loaded
  · obtain ⟨text, isRead, _⟩ := bind_eq_ok_iff.mp loaded
    exact FileTree.holds_of_read isRead
  · cases loaded

/-- A file loads exactly if its document counts as nothing, which yields the defaults, or is a mapping
that makes a valid configuration when it is merged over the defaults, which yields that configuration.
A document that counts as something and is no mapping is a violation, whatever is in it. -/
theorem load_accepts (stored : files.Holds path text)
    (content : Yaml.readDocument (unifyLineEnds text.toList) = .ok v) :
    (∀ s, (load files path).outcome = .ok s ↔ v.isGiven = false ∧ s = defaults ∨
      ∃ entries, v.entries? = some entries ∧ s.Merges defaults entries ∧ s.Valid) ∧
    (v.isGiven = true → v.entries? = none →
      (load files path).outcome = .error (.invalid (.noMapping path.text))) := by
  have described : (load files path).outcome = ofDocument path v := by
    rw [load_outcome, readFrom_eq stored, content]
    rfl
  rw [described]
  refine ⟨fun s => ?_, ofDocument_noMapping path⟩
  cases given : v.isGiven with
  | false =>
    rw [ofDocument_nothing path given, Except.ok.injEq, eq_comm]
    refine ⟨fun same => .inl ⟨rfl, same⟩, ?_⟩
    rintro (⟨_, same⟩ | ⟨entries, isMap, merges, _⟩)
    · exact same
    · -- A mapping that counts as nothing has no entries to merge.
      obtain rfl := entries?_of_nothing given isMap
      exact merges_nil_iff.mp merges
  | true =>
    have something : ¬(true = false ∧ s = defaults) := fun nothing => nomatch nothing.1
    rw [or_iff_right something]
    cases isMap : v.entries? with
    | none =>
      rw [ofDocument_noMapping path given isMap]
      exact iff_of_false nofun (by rintro ⟨_, ⟨⟩, _⟩)
    | some entries =>
      rw [ofDocument_map path given isMap (Yaml.onceNamed_of_readDocument content isMap)]
      constructor
      · intro accepted
        exact ⟨entries, rfl, accepted⟩
      · rintro ⟨_, ⟨⟩, accepted⟩
        exact accepted

/-! ## Two documents -/

/-- A file with a mapping of one entry, and one with an empty list. -/
def twoDocuments : FileTree where
  working := []
  entries := [([], .directory), (["soft.yaml"], .file (.text "decibel_threshold_min: 55\n")),
    (["list.yaml"], .file (.text "[]\n"))]

-- Results cannot be compared, but their form can be evaluated.
private def isSoft : Except Fault Value → Bool
  | .ok (.map [(.text name, .int 55)]) => name == "decibel_threshold_min"
  | _ => false

private theorem eq_of_isSoft {content : Except Fault Value} (holds : isSoft content = true) :
    content = .ok (.map [(.text SettingField.decibelMin.name, .int 55)]) := by
  unfold isSoft at holds
  split at holds
  · obtain rfl := eq_of_beq holds
    rfl
  · contradiction

private def isEmptyList : Except Fault Value → Bool
  | .ok (.list []) => true
  | _ => false

private theorem eq_of_isEmptyList {content : Except Fault Value} (holds : isEmptyList content = true) :
    content = .ok (.list []) := by
  unfold isEmptyList at holds
  split at holds
  · rfl
  · contradiction

/-- The mapping is merged over the defaults. -/
theorem load_accepts_soft : twoDocuments.Holds (.ofText "soft.yaml") "decibel_threshold_min: 55\n" ∧
    (load twoDocuments (.ofText "soft.yaml")).outcome = .ok (defaults.set .decibelMin (.int 55)) := by
  have stored : twoDocuments.Holds (.ofText "soft.yaml") "decibel_threshold_min: 55\n" := by
    simp only [FileTree.Holds, FileTree.lookup?, FileTree.locate, String.contains_char_eq]
    decide +kernel
  have content : Yaml.readDocument (unifyLineEnds (String.toList "decibel_threshold_min: 55\n")) =
      .ok (.map [(.text SettingField.decibelMin.name, .int 55)]) := eq_of_isSoft (by decide +kernel)
  have near : (Number.int 55).Admitted := by
    show (Binary64.ofInt? 55).isSome = true
    decide +kernel
  have coerced : readField .decibelMin (.int 55) = .ok (.int 55) :=
    readField_of_isNumber ⟨.int 55, near, rfl⟩ (by rintro _ ⟨⟩) (by rintro ⟨⟩)
  have merges : Merges (defaults.set .decibelMin (.int 55)) defaults
      [(.text SettingField.decibelMin.name, .int 55)] :=
    (merges_cons_iff (List.pairwise_singleton _ _)).mpr ⟨_, _, rfl, coerced, merges_nil_iff.mpr rfl⟩
  refine ⟨stored, ((load_accepts stored content).1 _).mpr (.inr ⟨_, rfl, merges, ?_⟩)⟩
  decide +kernel

/-- The empty list counts as nothing, so it is taken for the defaults though it is no mapping. -/
theorem loads_emptyList : twoDocuments.Holds (.ofText "list.yaml") "[]\n" ∧
    Yaml.readDocument (unifyLineEnds (String.toList "[]\n")) = .ok (.list []) ∧
      (load twoDocuments (.ofText "list.yaml")).outcome = .ok defaults := by
  have stored : twoDocuments.Holds (.ofText "list.yaml") "[]\n" := by
    simp only [FileTree.Holds, FileTree.lookup?, FileTree.locate, String.contains_char_eq]
    decide +kernel
  have content : Yaml.readDocument (unifyLineEnds (String.toList "[]\n")) = .ok (.list []) :=
    eq_of_isEmptyList (by decide +kernel)
  refine ⟨stored, content, ?_⟩
  rw [load_outcome, readFrom_eq stored, content, bind_eq_ok_iff]
  exact ⟨_, rfl, ofDocument_nothing _ rfl⟩

end Settings

end TrainingCollar
