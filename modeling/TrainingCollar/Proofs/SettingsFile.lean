import TrainingCollar.Proofs.Genuine
import TrainingCollar.Proofs.Mapping

/-! # Saving and loading

A file reads as what was last written to it. Together with what is known of sheets this makes loading
find what saving wrote: `Settings.Built.load_save`.
-/

namespace TrainingCollar

/-! ## Files -/

theorem unifyLineEnds_eq_self {s : List Char} (noReturn : '\r' ∉ s) : unifyLineEnds s = s := by
  fun_induction unifyLineEnds with
  | case1 rest ih => exact absurd List.mem_cons_self noReturn
  | case2 rest _ ih => exact absurd List.mem_cons_self noReturn
  | case3 ch rest _ _ ih => rw [ih fun among => noReturn (List.mem_cons_of_mem ch among)]
  | case4 => rfl

namespace FileTree

variable {t written : FileTree} {location here there : Location} {content : Content} {p : Path} {s : String}

/-! A file takes the place of no directory, so paths still lead where they led. -/

section Put

variable (free : t.at? location ≠ some .directory)
include free

theorem step_put {part : String} (stepped : t.step here part = .ok there) :
    (t.put location (.file content)).step here part = .ok there := by
  have isDirectory : t.at? here = some .directory := by
    unfold step at stepped
    split at stepped
    · cases stepped
    · cases stepped
    · next isDirectory => exact isDirectory
  have elsewhere : here ≠ location := by
    rintro rfl
    exact free isDirectory
  unfold step at stepped ⊢
  rwa [at?_put_of_ne t _ elsewhere]

theorem follow_put {parts : List String} (followed : t.follow here parts = .ok there) :
    (t.put location (.file content)).follow here parts = .ok there := by
  induction parts generalizing here with
  | nil => exact followed
  | cons part rest ih =>
    unfold follow at followed ⊢
    cases stepped : t.step here part with
    | error cause =>
      rw [stepped] at followed
      cases followed
    | ok next =>
      rw [stepped] at followed
      rw [step_put free stepped]
      exact ih followed

theorem locate_put (located : t.locate p = .ok there) :
    (t.put location (.file content)).locate p = .ok there := by
  unfold locate at located ⊢
  split at located
  · cases located
  · next named =>
    split at located
    · cases located
    · next short =>
      rw [if_neg named, if_neg short]
      exact follow_put free located

end Put

theorem write_eq_ok_iff : t.write p s = .ok written ↔ ∃ location, t.locate p = .ok location ∧
    t.at? location ≠ some .directory ∧ written = t.put location (.file (.text s)) := by
  unfold write
  split
  · next cause located =>
    rw [located]
    exact iff_of_false nofun fun ⟨_, same, _⟩ => nomatch same
  · next location located =>
    rw [located]
    split
    · next isDirectory =>
      refine iff_of_false nofun ?_
      rintro ⟨_, same, free, _⟩
      cases same
      exact free isDirectory
    · next free =>
      constructor
      · intro same
        cases same
        exact ⟨location, rfl, free, rfl⟩
      · rintro ⟨_, same, _, rfl⟩
        cases same
        rfl

/-- The path names a file that holds exactly the text. -/
def Holds (t : FileTree) (p : Path) (s : String) : Prop := t.lookup? p = some (.file (.text s))

/-- A file holds what was written to it. -/
theorem holds_of_write (wrote : t.write p s = .ok written) : written.Holds p s := by
  obtain ⟨location, located, free, rfl⟩ := write_eq_ok_iff.mp wrote
  simp only [Holds, lookup?, locate_put free located, at?_put_self]

theorem lookup?_eq_some_iff {entry : Entry} : t.lookup? p = some entry ↔
    ∃ location, t.locate p = .ok location ∧ t.at? location = some entry := by
  unfold lookup?
  cases t.locate p with
  | error cause =>
    refine iff_of_false (by rintro ⟨⟩) ?_
    rintro ⟨_, ⟨⟩, _⟩
  | ok location =>
    constructor
    · intro there
      exact ⟨location, rfl, there⟩
    · rintro ⟨_, ⟨⟩, there⟩
      exact there

theorem Holds.locate (holds : t.Holds p s) :
    ∃ location, t.locate p = .ok location ∧ t.at? location = some (.file (.text s)) :=
  lookup?_eq_some_iff.mp holds

theorem Holds.exists? (holds : t.Holds p s) : t.exists? p = .ok true := by
  obtain ⟨location, located, something⟩ := holds.locate
  rw [FileTree.exists?, located]
  exact congrArg (fun entry : Option Entry => Except.ok entry.isSome) something

theorem Holds.read (holds : t.Holds p s) :
    t.read p = .ok (String.ofList (unifyLineEnds s.toList)) := by
  obtain ⟨location, located, something⟩ := holds.locate
  simp only [FileTree.read, located, something]

/-- What is read of a file is in the file. -/
theorem holds_of_read {text : String} (isRead : t.read p = .ok text) : ∃ held, t.Holds p held := by
  unfold FileTree.read at isRead
  split at isRead
  · cases isRead
  · next location located =>
    split at isRead
    · cases isRead
    · cases isRead
    · cases isRead
    · next held there => exact ⟨held, lookup?_eq_some_iff.mpr ⟨location, located, there⟩⟩

/-- A fault of the file system. -/
def Refuses (fault : Fault) : Prop := ∃ cause place, fault = .file cause place

theorem refuses_of_write {fault : Fault} (failed : t.write p s = .error fault) : Refuses fault := by
  unfold write at failed
  split at failed
  · cases failed
    exact ⟨_, _, rfl⟩
  · split at failed
    · cases failed
      exact ⟨_, _, rfl⟩
    · cases failed

theorem refuses_of_makeDirectories {fault : Fault} (failed : t.makeDirectories p = .error fault) :
    Refuses fault := by
  fun_induction makeDirectories t p generalizing fault with
  | case1 => cases failed
  | case2 =>
    cases failed
    exact ⟨_, _, rfl⟩
  | case3 p _ _ ih =>
    cases above : t.makeDirectories p.parent with
    | error cause =>
      rw [above] at failed
      cases failed
      exact ih above
    | ok made =>
      simp only [above, bind, Except.bind] at failed
      split at failed
      · cases failed
      · split at failed
        · cases failed
        · cases failed
          exact ⟨_, _, rfl⟩
  | case4 => cases failed
  | case5 =>
    cases failed
    exact ⟨_, _, rfl⟩

end FileTree

/-! ## Configurations -/

namespace Settings

variable {s : Settings} {text : String} {files : FileTree} {path : Path}

/-- Wherever the configuration is saved, the file holds the text afterwards, and nothing but a refusal
of the file system prevents it. -/
structure SavesAs (s : Settings) (text : String) : Prop where
  writes : ∀ {files path record}, (save files path s).2 = .ok record →
    (save files path s).1.Holds path text
  refuses : ∀ {files path fault}, (save files path s).2 = .error fault → FileTree.Refuses fault

theorem savesAs_of_document (isText : s.document = .ok text) : s.SavesAs text := by
  constructor
  · intro files path record saved
    unfold save at saved ⊢
    split at saved
    · cases saved
    · split at saved
      · cases saved
      · rw [isText] at saved ⊢
        dsimp only at saved ⊢
        split at saved
        · cases saved
        · next wrote => exact FileTree.holds_of_write wrote
  · intro files path fault failed
    unfold save at failed
    split at failed
    · next notMade =>
      cases failed
      exact FileTree.refuses_of_makeDirectories notMade
    · split at failed
      · next notEmptied =>
        cases failed
        exact FileTree.refuses_of_write notEmptied
      · rw [isText] at failed
        dsimp only at failed
        split at failed
        · next notWritten =>
          cases failed
          exact FileTree.refuses_of_write notWritten
        · cases failed

/-- Loading a file depends on nothing but its text. -/
theorem readFrom_eq (holds : files.Holds path text) : readFrom files path =
    Yaml.readDocument (unifyLineEnds text.toList) >>= ofDocument path := by
  rw [readFrom, holds.exists?]
  show (files.read path >>= fun text => Yaml.readDocument text.toList >>= ofDocument path) = _
  rw [holds.read]
  show Yaml.readDocument (String.ofList _).toList >>= ofDocument path = _
  rw [String.toList_ofList]

/-- The document of a built configuration, and what it is read as. -/
theorem Canonical.document (canonical : s.Canonical) : ∃ text, s.document = .ok text ∧
    '\r' ∉ text.toList ∧ ∃ content, Yaml.readDocument text.toList = .ok content ∧
      content.isGiven = true ∧ content.entries?.isSome = true ∧ read content = .ok s := by
  obtain ⟨content, isContent, ⟨node, sheet, represents⟩, isGiven, isMap, reads⟩ := canonical.toMap
  obtain ⟨written, readBack⟩ := sheet.readDocument_render represents
  refine ⟨.ofList node.render, ?_, ?_, content, ?_, isGiven, isMap, reads⟩
  · rw [Settings.document, isContent]
    show (Yaml.writeDocument content >>= fun text => pure (String.ofList text)) = _
    rw [written]
    rfl
  · rw [String.toList_ofList]
    intro among
    rcases sheet.legible_render _ among with printable | same
    · exact absurd printable (by decide)
    · exact absurd same (by decide)
  · rw [String.toList_ofList, readBack]

/-- A built and valid configuration is loaded from every file that holds its document. -/
theorem Canonical.load (canonical : s.Canonical) (valid : s.Valid) (isText : s.document = .ok text)
    (holds : files.Holds path text) : (load files path).outcome = .ok s := by
  obtain ⟨_, same, noReturn, content, readBack, isGiven, isMap, isRead⟩ := canonical.document
  obtain rfl := Except.ok.inj (isText.symm.trans same)
  have fromContent : ofDocument path content = .ok s := by
    have notMissing : content.entries?.isNone = false := by rw [← Option.not_isSome, isMap]; rfl
    rw [ofDocument, if_pos isGiven]
    simp only [notMissing, isRead]
    show (validate s >>= fun _ => pure s) = _
    rw [valid]
    rfl
  have fromFile : readFrom files path = .ok s := by
    rw [readFrom_eq holds, unifyLineEnds_eq_self noReturn, readBack]
    exact fromContent
  rw [Settings.load, fromFile]

/-- Saving and loading a built and valid configuration: what is saved is a text that depends on
nothing but the configuration, and loading any file that holds it yields exactly the configuration,
field by field and with the kinds of all numbers. In particular what was loaded saves as the same text
again. -/
theorem Built.load_save (built : s.Built) (valid : s.Valid) : ∃ text, s.document = .ok text ∧
    s.SavesAs text ∧ ∀ files path, files.Holds path text → (load files path).outcome = .ok s := by
  have canonical := built_iff.mp built
  obtain ⟨text, isText, _⟩ := canonical.document
  exact ⟨text, isText, savesAs_of_document isText,
    fun files path holds => canonical.load valid isText holds⟩

/-- A configuration for a quiet room, with a negative level, one that is no integer, and a step. -/
def quiet : Settings :=
  ((defaults.set .decibelMin (.int (-20))).set .decibelMax
    (.float (.finite true (25 * 2 ^ 48) 1025 (by decide)))).set (.steps .corrections) (stepsValue [{
      kind := .choice (.stimulus .beep)
      startDelay := .float (.finite false (25 * 2 ^ 48) 1025 (by decide))
      endDelay := .int 10000000000000000000000
      timeMode := .choice (.resolution .fixed)
      time := rangeValue [.int 250]
      strengthMode := .choice (.resolution .fixed)
      strength := rangeValue [.int 0] }])

theorem quiet_canonical : quiet.Canonical := by
  have integer {n : Int} (near : (Binary64.ofInt? n).isSome = true) : (Number.int n).Admitted := near
  have low : SettingField.decibelMin.Holds (.int (-20)) := ⟨.int (-20), integer (by decide +kernel), rfl⟩
  have float {x : Binary64} (isFinite : x.isFinite = true) : (Number.float x).Admitted := isFinite
  have high {x : Binary64} (isFinite : x.isFinite = true) : SettingField.decibelMax.Holds (.float x) :=
    ⟨.float x, float isFinite, rfl⟩
  refine ((defaults_canonical.set low).set (high rfl)).set ⟨[_], rfl, List.forall_mem_singleton.mpr ?_⟩
  exact {
    kind := ⟨_, rfl, rfl⟩
    startDelay := ⟨.float _, float rfl, rfl⟩
    endDelay := ⟨.int _, integer (by decide +kernel), rfl⟩
    timeMode := ⟨_, rfl, rfl⟩
    time := ⟨[.int 250], .inl rfl, List.forall_mem_singleton.mpr (integer (by decide +kernel)), rfl⟩
    strengthMode := ⟨_, rfl, rfl⟩
    strength := ⟨[.int 0], .inl rfl, List.forall_mem_singleton.mpr (integer (by decide +kernel)), rfl⟩ }

theorem quiet_valid : quiet.Valid := by decide +kernel

/-- A configuration can be saved where nothing is yet. -/
theorem save_empty (isText : s.document = .ok text) :
    ∃ record, (save (.empty []) ⟨"", ["settings.yaml"]⟩ s).2 = .ok record := by
  rw [save, FileTree.makeDirectories]
  simp only [FileTree.makeDirectory, FileTree.isDirectory, FileTree.lookup?, FileTree.write,
    FileTree.locate, String.contains_char_eq, isText]
  exact ⟨_, rfl⟩

/-- The configuration for a quiet room is saved and loaded. -/
theorem load_save_quiet : ∃ text written record,
    save (.empty []) ⟨"", ["settings.yaml"]⟩ quiet = (written, .ok record) ∧
      written.Holds ⟨"", ["settings.yaml"]⟩ text ∧
        (load written ⟨"", ["settings.yaml"]⟩).outcome = .ok quiet := by
  obtain ⟨text, isText, savesAs, loads⟩ := Built.load_save (built_iff.mpr quiet_canonical) quiet_valid
  obtain ⟨record, saved⟩ := save_empty isText
  have holds := savesAs.writes saved
  exact ⟨text, _, record, Prod.ext rfl saved, holds, loads _ _ holds⟩

end Settings

end TrainingCollar
