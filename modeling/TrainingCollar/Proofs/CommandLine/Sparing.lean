import TrainingCollar.Proofs.CommandLine.Verdict
import TrainingCollar.Proofs.Files.Saving

/-! # What commands leave alone

Showing a configuration and checking a file change nothing. The defaults are written to the file that is
named and to no other, and what was written loads and is found valid. Without being forced to, the
command refuses to write to a file that exists. But it looks before the directories above the file are
made, and a name that goes up again from such a directory leads to a file that may have been there
before: `commands_spare`.
-/

namespace TrainingCollar.CommandLine

variable {files : FileTree} {file : String} {force : Bool} {args : List String} {request : Request}

/-! ## Writing the defaults -/

/-- What the command that writes the defaults to a file leaves behind. -/
structure Initializes (files : FileTree) (file : String) (force : Bool) (result : Result) : Prop where
  /-- Nothing changes but what the name leads to in the end. -/
  others : ∀ {location : Location} {entry : Entry}, files.at? location = some entry →
    result.files.locate (.ofText file) ≠ .ok location → result.files.at? location = some entry
  /-- Unless it is forced the command refuses to write to what exists. -/
  refuses : force = false → files.exists? (.ofText file) = .ok true →
    result.files = files ∧ result.ending = .ok 1
  /-- Unless it is forced the command leaves all files as they were if the name does not go up, or if
  the directory above the file is there already. -/
  unforced : force = false →
    ".." ∉ (Path.ofText file).parts ∨ files.isDirectory (Path.ofText file).parent = true →
    ∀ {location : Location} {content : Content}, files.at? location = some (.file content) →
      result.files.at? location = some (.file content)
  loads : result.ending = .ok 0 →
    (Settings.load result.files (.ofText file)).outcome = .ok .defaults
  isValid : result.ending = .ok 0 → ∀ request : Request, request.command = .validate file →
    (request.run result.files).ending = .ok 0

/-- The command changes nothing and does not end with zero, or it saves the defaults. -/
theorem runInit_cases (files : FileTree) (file : String) (force : Bool) :
    ((runInit files file force).files = files ∧ (runInit files file force).ending ≠ .ok 0) ∨
    ∃ found, files.exists? (.ofText file) = .ok found ∧ (found = false ∨ force = true) ∧
      (runInit files file force).files = (Settings.defaults.save files (.ofText file)).1 ∧
      ((runInit files file force).ending = .ok 0 →
        ∃ record, (Settings.defaults.save files (.ofText file)).2 = .ok record) := by
  unfold runInit
  dsimp only
  split
  · exact .inl ⟨rfl, nofun⟩
  · next found exists_ =>
    split
    · exact .inl ⟨rfl, nofun⟩
    · next goesOn =>
      have allowed : found = false ∨ force = true := by
        cases found with
        | false => exact .inl rfl
        | true => exact .inr (by simpa using goesOn)
      refine .inr ⟨found, exists_, allowed, ?_⟩
      split
      · next saved =>
        rw [saved]
        exact ⟨rfl, fun _ => ⟨_, rfl⟩⟩
      · next saved =>
        rw [saved]
        exact ⟨rfl, nofun⟩

theorem runInit_refuses (exists_ : files.exists? (.ofText file) = .ok true) :
    (runInit files file false).files = files ∧ (runInit files file false).ending = .ok 1 := by
  simp only [runInit, exists_, Bool.not_false, Bool.and_self, if_true, and_self]

/-- After the command has ended with zero the file holds the document of the defaults. -/
theorem holds_of_runInit (ended : (runInit files file force).ending = .ok 0) :
    ∃ text, Settings.defaults.document = .ok text ∧
      (runInit files file force).files.Holds (.ofText file) text := by
  obtain ⟨text, isText, _⟩ := Settings.defaults_canonical.document
  rcases runInit_cases files file force with ⟨_, notZero⟩ | ⟨_, _, _, sameFiles, saves⟩
  · exact absurd ended notZero
  · obtain ⟨record, saved⟩ := saves ended
    refine ⟨text, isText, ?_⟩
    rw [sameFiles]
    exact (Settings.savesAs_of_document isText).writes saved

theorem load_of_runInit (ended : (runInit files file force).ending = .ok 0) :
    (Settings.load (runInit files file force).files (.ofText file)).outcome = .ok .defaults := by
  obtain ⟨text, isText, holds⟩ := holds_of_runInit ended
  exact Settings.defaults_canonical.load Settings.defaults_valid isText holds

/-- Without being forced to, the command changes no file if the name leads where it led before. -/
theorem runInit_unforced (tree : files.IsTree)
    (plain : ".." ∉ (Path.ofText file).parts ∨ files.isDirectory (Path.ofText file).parent = true)
    {location : Location} {content : Content} (there : files.at? location = some (.file content)) :
    (runInit files file false).files.at? location = some (.file content) := by
  rcases runInit_cases files file false with ⟨sameFiles, _⟩ | ⟨found, exists_, isNew, sameFiles, _⟩
  · rw [sameFiles, there]
  · obtain rfl : found = false := isNew.resolve_right Bool.false_ne_true
    rw [sameFiles]
    have spares := Settings.spares_save files (.ofText file) .defaults
    refine spares.others there fun located => ?_
    -- The name would have led to the file before, and then it would have been found.
    have before := spares.locate_before tree plain (by rw [there]; nofun) located
    rw [FileTree.exists?, before] at exists_
    simp only [there, Option.isSome_some] at exists_
    cases exists_

theorem initializes_runInit (tree : files.IsTree) (file : String) (force : Bool) :
    Initializes files file force (runInit files file force) where
  others there elsewhere := by
    rcases runInit_cases files file force with ⟨sameFiles, _⟩ | ⟨_, _, _, sameFiles, _⟩
    · rw [sameFiles, there]
    · rw [sameFiles] at elsewhere ⊢
      exact (Settings.spares_save files (.ofText file) .defaults).others there elsewhere
  refuses unforced exists_ := by
    subst unforced
    exact runInit_refuses exists_
  unforced unforced plain _ _ there := by
    subst unforced
    exact runInit_unforced tree plain there
  loads := load_of_runInit
  isValid ended request asks := by
    obtain ⟨_, _, holds⟩ := holds_of_runInit ended
    obtain ⟨verbose, command⟩ := request
    obtain rfl : command = .validate file := asks
    exact (verdict_runValidate holds).valid.mpr ⟨_, load_of_runInit ended⟩

theorem files_runShow (files : FileTree) (file : Option String) : (runShow files file).files = files := by
  unfold runShow
  dsimp only
  split
  · rfl
  · rfl
  · split <;> rfl

theorem files_runValidate (files : FileTree) (file : String) :
    (runValidate files file).files = files := by
  unfold runValidate
  dsimp only
  split
  · rfl
  · split <;> rfl

/-- The commands that show a configuration and check a file change nothing. The command that writes the
defaults changes no file but the one that is named, and unless it is forced not even that, provided that
the name does not go up from a directory that is yet to be made. Whenever it ends with zero the file
loads as the defaults, and it is found valid under the same name. -/
theorem commands_spare (tree : files.IsTree) (asked : read args = .ok request) :
    ((∀ file force, request.command ≠ .init file force) → (request.run files).files = files) ∧
    ∀ file force, request.command = .init file force →
      Initializes files file force (request.run files) ∧
        ("--" ∉ args → read ["validate", file] = .ok ⟨false, .validate file⟩) := by
  obtain ⟨verbose, command⟩ := request
  constructor
  · intro noInit
    cases command with
    | «show» file => exact files_runShow files file
    | validate file => exact files_runValidate files file
    | init file force => exact absurd rfl (noInit file force)
  · rintro file force ⟨⟩
    have done := initializes_runInit tree file force
    exact ⟨⟨done.others, done.refuses, done.unforced, done.loads, done.isValid⟩,
      fun noMark => read_validate_of_init noMark asked rfl⟩

/-! ## A file that is there -/

open FileTree (oneFile isTree_oneFile holds_oneFile)

/-- The defaults are written next to the file that is there, which stays as it is. -/
theorem commands_spare_oneFile : ∃ request, read ["init", "fresh.yaml"] = .ok request ∧
    (request.run oneFile).ending = .ok 0 ∧
      (Settings.load (request.run oneFile).files (.ofText "fresh.yaml")).outcome = .ok .defaults ∧
        (request.run oneFile).files.at? ["kept.yaml"] = some (.file (.text "mic_sensitivity: 28\n")) := by
  have asked : read ["init", "fresh.yaml"] = .ok ⟨false, .init "fresh.yaml" false⟩ := by decide +kernel
  obtain ⟨initializes, _⟩ := (commands_spare isTree_oneFile asked).2 _ _ rfl
  have isNew : oneFile.exists? (.ofText "fresh.yaml") = .ok false := by
    simp only [FileTree.exists?, FileTree.locate, String.contains_char_eq]
    rfl
  have above : oneFile.isDirectory (Path.ofText "fresh.yaml").parent = true := by
    simp only [FileTree.isDirectory, FileTree.lookup?, FileTree.locate, String.contains_char_eq]
    decide +kernel
  obtain ⟨text, isText, _⟩ := Settings.defaults_canonical.document
  have ended : (runInit oneFile "fresh.yaml" false).ending = .ok 0 := by
    simp only [runInit, isNew, Settings.save, FileTree.makeDirectories_of_isDirectory above, isText,
      FileTree.write, FileTree.locate, String.contains_char_eq]
    rfl
  refine ⟨_, asked, ended, initializes.loads ended, ?_⟩
  exact initializes.unforced rfl (.inr above) (by decide +kernel)

/-- Though the file that is there is not found under a name that goes up from a directory that is not
there, the command writes to it. -/
theorem init_overwrites : oneFile.IsTree ∧
    oneFile.Holds (.ofText "kept.yaml") "mic_sensitivity: 28\n" ∧
      ∃ request text, read ["init", "new/../kept.yaml"] = .ok request ∧
        (request.run oneFile).ending = .ok 0 ∧ text ≠ "mic_sensitivity: 28\n" ∧
          (request.run oneFile).files.Holds (.ofText "kept.yaml") text := by
  let made : FileTree := oneFile.put ["new"] .directory
  have isNew : oneFile.exists? (.ofText "new/../kept.yaml") = .ok false := by
    simp only [FileTree.exists?, FileTree.locate, String.contains_char_eq]
    rfl
  have lower : oneFile.makeDirectories ⟨"", ["new"]⟩ = .ok made := by
    rw [FileTree.makeDirectories]
    simp only [FileTree.makeDirectory, FileTree.locate, String.contains_char_eq]
    rfl
  have makes : oneFile.makeDirectories ⟨"", ["new", ".."]⟩ = .ok made := by
    have missing : oneFile.makeDirectory ⟨"", ["new", ".."]⟩ = .error .notFound := by
      simp only [FileTree.makeDirectory, FileTree.locate, String.contains_char_eq]
      rfl
    have found : made.makeDirectory ⟨"", ["new", ".."]⟩ = .error .alreadyExists := by
      simp only [FileTree.makeDirectory, FileTree.locate, String.contains_char_eq]
      rfl
    have isDirectory : made.isDirectory ⟨"", ["new", ".."]⟩ = true := by
      simp only [FileTree.isDirectory, FileTree.lookup?, FileTree.locate, String.contains_char_eq]
      decide +kernel
    rw [FileTree.makeDirectories, missing]
    simp only [Path.parent, List.dropLast, lower, bind, Except.bind, found, isDirectory]
    rfl
  obtain ⟨text, isText, _⟩ := Settings.defaults_canonical.document
  have differs : text ≠ "mic_sensitivity: 28\n" := by
    rintro rfl
    have other : Settings.defaults.document.toOption ≠ some "mic_sensitivity: 28\n" := by decide +kernel
    exact other (by rw [isText, Except.toOption])
  have asked : read ["init", "new/../kept.yaml"] = .ok ⟨false, .init "new/../kept.yaml" false⟩ := by
    decide +kernel
  have parent : (Path.ofText "new/../kept.yaml").parent = ⟨"", ["new", ".."]⟩ := by decide +kernel
  have overwritten : (runInit oneFile "new/../kept.yaml" false).ending = .ok 0 ∧
      (runInit oneFile "new/../kept.yaml" false).files.Holds (.ofText "kept.yaml") text := by
    simp only [runInit, isNew, Settings.save, parent, makes, isText, FileTree.write, FileTree.Holds,
      FileTree.lookup?, FileTree.locate, String.contains_char_eq]
    exact ⟨rfl, rfl⟩
  exact ⟨isTree_oneFile, holds_oneFile, _, text, asked, overwritten.1, differs, overwritten.2⟩

end TrainingCollar.CommandLine
