import TrainingCollar.Proofs.Causes
import TrainingCollar.Proofs.CommandLine.Arguments
import TrainingCollar.Proofs.Loading
import TrainingCollar.Proofs.Yaml.Failure

/-! # The verdict on a file

The command that checks a file ends with zero for a file that loads and with one for a text that is no
document or describes no valid configuration. Loading may fail otherwise, and then the program ends
without a verdict: for a scalar that cannot be read, an integer beyond the doubles, a key that is no
text, or something that no message can show. `validate_judges` says so of every file.
-/

namespace TrainingCollar

/-! ## Loading a text -/

namespace Settings

variable {files : FileTree} {path : Path} {text : String} {v : Value}

/-- The content of a document fails as its parts make it fail. -/
theorem failsOnly_ofDocument (path : Path) (genuine : v.Genuine) :
    FailsOnly v.Causes (ofDocument path v) := by
  by_cases given : v.isGiven = true
  · rw [ofDocument, if_pos given]
    refine .ite (.refuse v.causes_violations (List.forall_mem_nil _)) (.bind (failsOnly_read genuine) ?_)
    intro settings isRead
    have canonical := canonical_of_read genuine isRead
    exact .bind (canonical.failsOnly_validate v.causes_violations) fun _ _ => .pure _
  · rw [ofDocument_nothing path (Bool.eq_false_iff.mpr given)]
    exact .ok _

/-- A mapping with a key that is no text cannot be read as a configuration at all. -/
theorem ofDocument_odd (path : Path) {entries : List (Value × Value)}
    (odd : ¬Value.TextKeys entries) : ofDocument path (.map entries) = .error .wrongKind := by
  have given : (Value.map entries).isGiven = true := by
    cases entries with
    | nil => exact absurd (List.forall_mem_nil _) odd
    | cons entry rest => rfl
  rw [ofDocument, if_pos given]
  change (readFields (.map entries) >>= _) >>= _ = _
  rw [readFields_odd odd]
  rfl

/-- A fault of loading a text comes from reading the text, or its document has a part to cause it. -/
def Traced (text : String) (fault : Fault) : Prop :=
  let content := Yaml.readDocument (unifyLineEnds text.toList)
  (content = .error fault ∧ fault.IsReading) ∨ ∃ v, content = .ok v ∧ v.Causes fault

theorem failsOnly_load (holds : files.Holds path text) :
    FailsOnly (Traced text) (load files path).outcome := by
  rw [load_outcome, readFrom_eq holds]
  constructor
  intro fault failed
  cases isContent : Yaml.readDocument (unifyLineEnds text.toList) with
  | error cause =>
    rw [isContent] at failed
    cases failed
    exact .inl ⟨isContent, (Yaml.failsOnly_readDocument _).allows _ isContent⟩
  | ok v =>
    rw [isContent] at failed
    have genuine := Yaml.genuine_of_readDocument isContent
    exact .inr ⟨v, isContent, (failsOnly_ofDocument path genuine).allows fault failed⟩

end Settings

namespace CommandLine

variable {files : FileTree} {file text : String} {request : Request}

/-! ## The verdict -/

/-- The faults that make a text an invalid file. -/
def Condemns (fault : Fault) : Prop := fault.IsViolation ∨ fault = .malformed

theorem isExpected_iff {fault : Fault} (traced : Settings.Traced text fault) :
    isExpected fault = true ↔ Condemns fault := by
  cases fault with
  | invalid violation => exact iff_of_true rfl (.inl ⟨violation, rfl⟩)
  | malformed => exact iff_of_true rfl (.inr rfl)
  | missingFile | file =>
    -- The file is there, and reading its text does not touch the file system again.
    rcases traced with ⟨_, other⟩ | ⟨_, _, other⟩
    · cases other
    · cases other
  | _ =>
    refine iff_of_false nofun ?_
    rintro (⟨_, other⟩ | other)
    · cases other
    · cases other

/-- What the command that checks a file ends with, by what loading the file comes to. -/
structure Verdict (text : String) (loaded : Except Fault Settings) (ending : Except Fault Nat) :
    Prop where
  valid : ending = .ok 0 ↔ ∃ settings, loaded = .ok settings
  invalid : ending = .ok 1 ↔ ∃ fault, loaded = .error fault ∧ Condemns fault
  /-- Without a verdict the program ends with the fault. -/
  withheld : ∀ fault, ending = .error fault ↔ loaded = .error fault ∧ ¬Condemns fault
  traced : ∀ fault, loaded = .error fault → Settings.Traced text fault

theorem verdict_runValidate (stored : files.Holds (.ofText file) text) :
    Verdict text (Settings.load files (.ofText file)).outcome (runValidate files file).ending := by
  have traced := (Settings.failsOnly_load stored).allows
  unfold runValidate
  dsimp only
  cases isLoaded : (Settings.load files (.ofText file)).outcome with
  | ok settings =>
    exact {
      valid := iff_of_true rfl ⟨settings, rfl⟩
      invalid := iff_of_false nofun (by rintro ⟨_, ⟨⟩, _⟩)
      withheld := fun _ => iff_of_false nofun (by rintro ⟨⟨⟩, _⟩)
      traced := nofun }
  | error fault =>
    rw [isLoaded] at traced
    have expected := isExpected_iff (traced fault rfl)
    have noSettings : ¬∃ settings, (.error fault : Except Fault Settings) = .ok settings := nofun
    dsimp only
    by_cases condemned : Condemns fault
    · rw [if_pos (expected.mpr condemned)]
      exact {
        valid := iff_of_false (by rintro ⟨⟩) noSettings
        invalid := iff_of_true rfl ⟨fault, rfl, condemned⟩
        withheld := fun _ => iff_of_false nofun (by rintro ⟨⟨⟩, spared⟩; exact spared condemned)
        traced := traced }
    · rw [if_neg fun isExpected => condemned (expected.mp isExpected)]
      exact {
        valid := iff_of_false nofun noSettings
        invalid := iff_of_false nofun (by rintro ⟨_, ⟨⟩, unlikely⟩; exact condemned unlikely)
        withheld := by
          intro other
          constructor
          · rintro ⟨⟩
            exact ⟨rfl, condemned⟩
          · rintro ⟨⟨⟩, _⟩
            rfl
        traced := traced }

/-- The command that checks a file gets as far as the file if its name has no dash in front. Then it
ends with zero exactly if the file loads, and with one exactly if its text is no document or describes
no valid configuration. In every other case the fault that loading fails with ends the program, and
either the text has a scalar that cannot be read, or its document has a part that causes the fault. -/
theorem validate_judges (stored : files.Holds (.ofText file) text) :
    (file.toList.head? ≠ some '-' → ∃ request, read ["validate", file] = .ok request) ∧
      ∀ request, read ["validate", file] = .ok request →
        Verdict text (Settings.load files (.ofText file)).outcome (request.run files).ending := by
  refine ⟨fun plain => ⟨_, read_validate plain⟩, ?_⟩
  intro request asked
  obtain rfl := eq_of_read_validate asked
  exact verdict_runValidate stored

/-- A text is judged if it is no document, or one with nothing in it but what can be read. -/
theorem Verdict.judged {loaded : Except Fault Settings} {ending : Except Fault Nat}
    (verdict : Verdict text loaded ending)
    (readable : ∀ fault, Yaml.readDocument (unifyLineEnds text.toList) = .error fault →
      fault = .malformed)
    (ordinary : ∀ v, Yaml.readDocument (unifyLineEnds text.toList) = .ok v → v.Ordinary) :
    ending = .ok 0 ∨ ending = .ok 1 := by
  cases loaded with
  | ok settings => exact .inl (verdict.valid.mpr ⟨settings, rfl⟩)
  | error fault =>
    refine .inr (verdict.invalid.mpr ⟨fault, rfl, ?_⟩)
    rcases verdict.traced fault rfl with ⟨failed, _⟩ | ⟨v, isContent, caused⟩
    · exact .inr (readable fault failed)
    · exact .inl ((ordinary v isContent).isViolation caused)

/-! ## Two files -/

/-- An empty settings file, and one with a number as a key. -/
def twoFiles : FileTree where
  working := []
  entries := [([], .directory), (["blank.yaml"], .file (.text "")),
    (["numbered.yaml"], .file (.text "1: 2\n"))]

theorem holds_blank : twoFiles.Holds (.ofText "blank.yaml") "" := by
  simp only [FileTree.Holds, FileTree.lookup?, FileTree.locate, String.contains_char_eq]
  decide +kernel

theorem holds_numbered : twoFiles.Holds (.ofText "numbered.yaml") "1: 2\n" := by
  simp only [FileTree.Holds, FileTree.lookup?, FileTree.locate, String.contains_char_eq]
  decide +kernel

/-- The empty file is valid. -/
theorem validate_judges_blank : twoFiles.Holds (.ofText "blank.yaml") "" ∧
    ∃ request, read ["validate", "blank.yaml"] = .ok request ∧
      (request.run twoFiles).ending = .ok 0 := by
  obtain ⟨understood, judged⟩ := validate_judges holds_blank
  obtain ⟨request, asked⟩ := understood (by decide +kernel)
  have fromFile : Settings.readFrom twoFiles (.ofText "blank.yaml") = .ok .defaults := by
    rw [Settings.readFrom_eq holds_blank, bind_eq_ok_iff]
    exact ⟨.null, rfl, Settings.ofDocument_nothing _ rfl⟩
  have loaded : (Settings.load twoFiles (.ofText "blank.yaml")).outcome = .ok .defaults := by
    rw [Settings.load, fromFile]
  exact ⟨holds_blank, request, asked, (judged request asked).valid.mpr ⟨_, loaded⟩⟩

-- Results cannot be compared, but their form can be evaluated.
private def isNumbered : Except Fault Value → Bool
  | .ok (.map [(.int 1, .int 2)]) => true
  | _ => false

private theorem eq_of_isNumbered {content : Except Fault Value} (holds : isNumbered content = true) :
    content = .ok (.map [(.int 1, .int 2)]) := by
  unfold isNumbered at holds
  split at holds
  · rfl
  · contradiction

/-- The command gives no verdict on the file with a number as a key, though it does not load. -/
theorem verdict_withheld_numbered : twoFiles.Holds (.ofText "numbered.yaml") "1: 2\n" ∧
    ∃ request, read ["validate", "numbered.yaml"] = .ok request ∧
      (request.run twoFiles).ending = .error .wrongKind := by
  have asked : read ["validate", "numbered.yaml"] = .ok ⟨false, .validate "numbered.yaml"⟩ :=
    read_validate (by decide +kernel)
  have content : Yaml.readDocument (unifyLineEnds (String.toList "1: 2\n")) =
      .ok (.map [(.int 1, .int 2)]) := eq_of_isNumbered (by decide +kernel)
  have odd : ¬Value.TextKeys [(.int 1, .int 2)] := by
    intro texts
    obtain ⟨_, isText⟩ := texts _ (List.mem_singleton_self _)
    cases isText
  have failed : (Settings.load twoFiles (.ofText "numbered.yaml")).outcome = .error .wrongKind := by
    have fromFile : Settings.readFrom twoFiles (.ofText "numbered.yaml") = .error .wrongKind := by
      rw [Settings.readFrom_eq holds_numbered, content]
      exact Settings.ofDocument_odd (.ofText "numbered.yaml") odd
    rw [Settings.load, fromFile]
  have uncondemned : ¬Condemns .wrongKind := by
    rintro (⟨_, other⟩ | other)
    · cases other
    · cases other
  refine ⟨holds_numbered, _, asked, ?_⟩
  exact ((verdict_runValidate holds_numbered).withheld _).mpr ⟨failed, uncondemned⟩

end CommandLine

end TrainingCollar
