import TrainingCollar.Proofs.Store.Newcomer

/-! # Courses

A course leads from a machine to a later one, through the steps of any number of scripts that are run
one after the other in the same world. It may be restricted to machines with a property: every
machine that takes a step then has it. A machine is fresh if it is about to run its first script, on
a store that was started with some value.
-/

namespace TrainingCollar

variable {κ μ ν : Type}

namespace Machine

variable {behave : κ → Settings → Script κ μ ν} {allowed : Machine κ μ ν → Prop}
  {first m later : Machine κ μ ν}

/-- A machine that is about to run its first script. -/
inductive Fresh (initial : Value) : Machine κ μ ν → Prop
  | of {store : Store κ} (started : Store.start initial = .ok store) (files : FileTree)
      (file : Option Path) (memory : μ) (script : Script κ μ ν) :
      Fresh initial (.start ⟨store, files, file.map (⟨·, none⟩), memory, [.logged .passed]⟩ script)

/-- The second machine follows from the first, and every machine that takes a step on the way has a
property. -/
inductive Course (behave : κ → Settings → Script κ μ ν) (allowed : Machine κ μ ν → Prop)
    (first : Machine κ μ ν) : Machine κ μ ν → Prop
  | refl : Course behave allowed first first
  | step {m : Machine κ μ ν} (course : Course behave allowed first m) (permitted : allowed m) :
      Course behave allowed first (m.step behave)
  | next {m : Machine κ μ ν} (course : Course behave allowed first m) (ended : m.outcome?.isSome)
      (script : Script κ μ ν) : Course behave allowed first (.start m.world script)

theorem Fresh.reachable {initial : Value} (fresh : first.Fresh initial) :
    first.Reachable behave := by
  obtain ⟨started, files, file, memory, script⟩ := fresh
  exact .first started files file memory script

namespace Course

theorem reachable (course : Course behave allowed first m) (reachable : first.Reachable behave) :
    m.Reachable behave := by
  induction course with
  | refl => exact reachable
  | step _ _ ih => exact ih.step
  | next _ ended script ih => exact ih.next ended script

theorem trans (course : Course behave allowed first m) (rest : Course behave allowed m later) :
    Course behave allowed first later := by
  induction rest with
  | refl => exact course
  | step _ permitted ih => exact ih.step permitted
  | next _ ended script ih => exact ih.next ended script

theorem mono {permitted : Machine κ μ ν → Prop} (course : Course behave allowed first m)
    (wider : ∀ m, allowed m → permitted m) : Course behave permitted first m := by
  induction course with
  | refl => exact .refl
  | step _ now ih => exact ih.step (wider _ now)
  | next _ ended script ih => exact ih.next ended script

/-- A run is a course if every machine on the way is permitted. -/
theorem run {steps : Nat} (permitted : ∀ k < steps, allowed (m.run behave k)) :
    Course behave allowed m (m.run behave steps) := by
  induction steps generalizing m with
  | zero => exact .refl
  | succ steps ih =>
    have now : allowed m := permitted 0 (Nat.succ_pos steps)
    have later : ∀ k < steps, allowed ((m.step behave).run behave k) := by
      intro k below
      rw [← run_succ]
      exact permitted (k + 1) (Nat.succ_lt_succ below)
    rw [run_succ]
    exact (Course.refl.step now).trans (ih later)

/-- What holds at the start and is kept by every step that is permitted, and by every script that is
started while nothing is being handed out, holds all along. -/
theorem induct {holds : Machine κ μ ν → Prop} (course : Course behave allowed first m)
    (reachable : first.Reachable behave) (start : holds first)
    (step : ∀ m : Machine κ μ ν, m.Coherent → allowed m → holds m → holds (m.step behave))
    (next : ∀ (m : Machine κ μ ν) (script : Script κ μ ν), m.Coherent →
      m.world.store.notifying = false → holds m → holds (.start m.world script)) : holds m := by
  induction course with
  | refl => exact start
  | @step m course permitted ih => exact step m (course.reachable reachable).coherent permitted ih
  | @next m course ended script ih =>
    have coherent := (course.reachable reachable).coherent
    exact next m script coherent (coherent.idle_of_ended ended) ih

end Course

/-- Whether the next step aborts the run. -/
def aborts (m : Machine κ μ ν) : Bool :=
  match m.control with
  | .run .abort => true
  | _ => false

theorem happening?_ne_aborted (goesOn : m.aborts = false) : m.happening? ≠ some .aborted := by
  intro abort
  have control := control_of_aborted abort
  rw [aborts, control] at goesOn
  cases goesOn

/-- Whether the next step accepts a configuration. -/
def accepts (m : Machine κ μ ν) : Bool := (m.happening?.bind Happening.accepted?).isSome

theorem aborts_of_accepts (accepts : m.accepts = true) : m.aborts = false := by
  unfold aborts
  split
  · next control =>
    simp only [Machine.accepts, happening?, control] at accepts
    cases accepts
  · rfl

/-- Whether the next step is an edit that slips. -/
def slips (m : Machine κ μ ν) : Bool :=
  match m.happening? with
  | some (.slipped _) => true
  | _ => false

theorem happening?_ne_slipped (holds : m.slips = false) (settings : Settings) :
    m.happening? ≠ some (.slipped settings) := by
  intro slipped
  rw [slips, slipped] at holds
  cases holds

/-- The next step neither aborts the run nor slips. -/
def Smooth (m : Machine κ μ ν) : Prop := m.aborts = false ∧ m.slips = false

instance : DecidablePred (Smooth : Machine κ μ ν → Prop) := fun m =>
  inferInstanceAs (Decidable (m.aborts = false ∧ m.slips = false))

/-- Whatever operation was called at the top has returned: no callback is waited for, and nothing is
being handed out. -/
def Returned (m : Machine κ μ ν) : Prop := m.stack = [] ∧ m.control.turn? = none

instance : Decidable m.Returned :=
  decidable_of_iff (m.stack.isEmpty = true ∧ m.control.turn?.isNone = true) (by
    rw [Returned, List.isEmpty_iff, Option.isNone_iff_eq_none])

theorem Returned.turns (returned : m.Returned) : m.turns = [] := by
  rw [turns_of_turn?_eq_none returned.2, returned.1]
  rfl

/-- Once an operation at the top has returned the store is at rest. -/
theorem Coherent.idle_of_returned (coherent : m.Coherent) (returned : m.Returned) :
    m.world.store.notifying = false := by
  have single : m.turns.length = m.world.store.notifying.toNat := coherent.orderly.single
  rw [returned.turns] at single
  exact Bool.toNat_eq_zero.mp single.symm

end Machine

end TrainingCollar
