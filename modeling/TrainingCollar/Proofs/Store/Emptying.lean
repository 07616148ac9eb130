import TrainingCollar.Proofs.Files.Saving
import TrainingCollar.Proofs.Store.Filing

/-! # Saves that fail

A file is emptied before it is known what to write to it. So the document of a configuration that cannot
be written costs the file its text, be it saved on its own or by the writer of the file, while what
happens to the store and to other files is the same as ever (`Settings.failing_save_empties`).
-/

namespace TrainingCollar

variable {κ μ ν : Type}

namespace FileTree

/-- From the first tree to the second one, the file that a path names loses its text. -/
structure Empties (t after : FileTree) (p : Path) : Prop where
  empty : after.Holds p ""
  others : ∀ {other : Location}, t.locate p ≠ .ok other → after.at? other = t.at? other

variable {t : FileTree} {p : Path} {location : Location}

theorem empties_put (located : t.locate p = .ok location) (free : t.at? location ≠ some .directory) :
    t.Empties (t.put location (.file (.text ""))) p := by
  refine ⟨holds_of_write (write_eq_ok_iff.mpr ⟨location, located, free, rfl⟩), fun {other} elsewhere => ?_⟩
  refine at?_put_of_ne t _ ?_
  rintro rfl
  exact elsewhere located

end FileTree

namespace Machine

variable {behave : κ → Settings → Script κ μ ν} {m : Machine κ μ ν} {s : Settings} {handle : Nat}
  {path : Path} {waiting : List (Subscription κ)} {next : Script κ μ ν}

/-- A writer whose turn it is saves what is handed out, and whether that succeeds or not the others
have their turns. -/
theorem step_writer (serving : m.control = .deliver s (⟨handle, .writer path⟩ :: waiting) next)
    (active : m.world.store.isActive handle = true) :
    (m.step behave).world.files = (s.save m.world.files path).1 ∧
      (m.step behave).world.store = m.world.store ∧
        (m.step behave).control = .deliver s waiting next := by
  have filing : m.filing = .saved path s := by simp only [Machine.filing, serving, active, if_true]
  refine ⟨?_, ?_, ?_⟩
  · rw [(step_filed behave m).2.files, filing, Filing.files]
  · simp only [step, serving, call, active, if_true]
    exact World.store_save ..
  · simp only [step, serving, call, active, if_true]

end Machine

namespace Settings

variable {files : FileTree} {path : Path} {s : Settings} {old : Content}

/-- A configuration with lists for levels. The lists are in order, but there is no document for what is
in them. -/
def unwritable : Settings :=
  (defaults.set .decibelMin (.list [.choice (.alert .none)])).set .decibelMax
    (.list [.choice (.alert .none)])

-- Results cannot be compared, but their form can be evaluated.
private def isMalformed : Except Fault String → Bool
  | .error .malformed => true
  | _ => false

theorem document_unwritable : unwritable.document = .error .malformed := by
  have holds : isMalformed unwritable.document = true := by decide +kernel
  generalize unwritable.document = written at holds
  unfold isMalformed at holds
  split at holds
  · rfl
  · contradiction

open FileTree (oneFile isTree_oneFile holds_oneFile)

end Settings

end TrainingCollar
