import TrainingCollar.Proofs.CommandLine.Verdict
import TrainingCollar.Proofs.Summary

/-! # What loads can be shown

The command that shows a configuration and the one that checks a file both load the file. Showing could
still fail halfway through its report, but never does: whatever loads is valid and has canonical contents,
and the summary of such a configuration is complete. So the two commands agree about every file.
-/

namespace TrainingCollar.CommandLine

variable {files : FileTree} {file : String} {s : Settings}

theorem runValidate_eq_zero_iff : (runValidate files file).ending = .ok 0 ↔
    ∃ s, (Settings.load files (.ofText file)).outcome = .ok s := by
  unfold runValidate
  dsimp only
  split
  · next s loaded => exact iff_of_true rfl ⟨s, loaded⟩
  · next fault failed =>
    have notLoaded : ¬∃ s, (Settings.load files (.ofText file)).outcome = .ok s := by
      rintro ⟨s, loaded⟩
      rw [failed] at loaded
      cases loaded
    refine iff_of_false ?_ notLoaded
    split
    · intro zero
      cases zero
    · exact nofun

theorem report_complete_of_load {path : Path} (loaded : (Settings.load files path).outcome = .ok s) :
    s.report.fault = none :=
  (Settings.canonical_of_load loaded).report_complete (Settings.valid_of_load loaded)

theorem runShow_eq_zero_iff (named : file ≠ "") : (runShow files (some file)).ending = .ok 0 ↔
    ∃ s, (Settings.load files (.ofText file)).outcome = .ok s := by
  unfold runShow
  split
  · contradiction
  · next absent => cases absent; contradiction
  · next name _ same =>
    cases same
    dsimp only
    split
    · next s loaded =>
      rw [report_complete_of_load loaded]
      exact iff_of_true rfl ⟨s, loaded⟩
    · next fault failed =>
      refine iff_of_false nofun ?_
      rintro ⟨s, loaded⟩
      rw [failed] at loaded
      cases loaded

/-- The summary of whatever loads from a file is complete, however large its numbers are and however many
steps it has. So for every file name but the empty one, the command that checks the file ends with zero
exactly if the one that shows it does. -/
theorem shows_what_loads :
    (∀ (files : FileTree) (path : Path) (s : Settings), (Settings.load files path).outcome = .ok s →
      s.report.fault = none) ∧
    ∀ (files : FileTree) (file : String), file ≠ "" →
      (((Command.validate file).run files).ending = .ok 0 ↔
        ((Command.show (some file)).run files).ending = .ok 0) := by
  constructor
  · intro files path s loaded
    exact report_complete_of_load loaded
  · intro files file named
    exact runValidate_eq_zero_iff.trans (runShow_eq_zero_iff named).symm

/-- The empty file can be shown, since it is valid. -/
theorem shows_what_loads_blank : "blank.yaml" ≠ "" ∧
    (Settings.load twoFiles (.ofText "blank.yaml")).outcome = .ok .defaults ∧
      Settings.defaults.report.fault = none ∧
        ((Command.show (some "blank.yaml")).run twoFiles).ending = .ok 0 := by
  have loaded : (Settings.load twoFiles (.ofText "blank.yaml")).outcome = .ok .defaults := by
    rw [Settings.load_outcome, Settings.readFrom_eq holds_blank, bind_eq_ok_iff]
    exact ⟨.null, rfl, Settings.ofDocument_nothing _ rfl⟩
  have named : "blank.yaml" ≠ "" := by decide
  obtain ⟨complete, agree⟩ := shows_what_loads
  have checked : ((Command.validate "blank.yaml").run twoFiles).ending = .ok 0 :=
    runValidate_eq_zero_iff.mpr ⟨_, loaded⟩
  exact ⟨named, loaded, complete _ _ _ loaded, (agree _ _ named).mp checked⟩

end TrainingCollar.CommandLine
