import TrainingCollar.Proofs.Store.Reachable

/-! # Histories

The history of a run lists what its steps did for those who hear of changes. It is computed beside
the run from the same steps, and it accounts for every call in the trace. Its accepted
configurations are in the order in which they were put in force, its calls in the order in which
they were made.
-/

namespace TrainingCollar

variable {κ μ ν : Type}

/-- The configurations that are put in force. -/
def acceptedIn (happenings : List (Happening κ)) : List Settings :=
  happenings.filterMap Happening.accepted?

/-- The configurations whose hand-outs begin. -/
def begunIn (happenings : List (Happening κ)) : List Settings :=
  happenings.filterMap Happening.begun?

/-- The calls that hand-outs make. -/
def handedIn (happenings : List (Happening κ)) : List (Call κ) :=
  happenings.filterMap Happening.handed?

/-- All calls, also those on subscribing. -/
def callsIn (happenings : List (Happening κ)) : List (Call κ) :=
  happenings.filterMap Happening.call?

/-- What a subscription is handed in some calls. -/
def heardBy (handle : Nat) (calls : List (Call κ)) : List Settings :=
  (calls.filter (·.subscription.handle == handle)).map Call.snapshot

section Parts

variable (happening : Happening κ) (first second : List (Happening κ))

@[simp] theorem acceptedIn_cons (rest : List (Happening κ)) :
    acceptedIn (happening :: rest) = happening.accepted?.toList ++ acceptedIn rest := by
  cases happening <;> rfl

@[simp] theorem handedIn_cons (rest : List (Happening κ)) :
    handedIn (happening :: rest) = happening.handed?.toList ++ handedIn rest := by
  cases happening <;> rfl

@[simp] theorem acceptedIn_append :
    acceptedIn (first ++ second) = acceptedIn first ++ acceptedIn second := List.filterMap_append

@[simp] theorem begunIn_append :
    begunIn (first ++ second) = begunIn first ++ begunIn second := List.filterMap_append

@[simp] theorem handedIn_append :
    handedIn (first ++ second) = handedIn first ++ handedIn second := List.filterMap_append

@[simp] theorem callsIn_append :
    callsIn (first ++ second) = callsIn first ++ callsIn second := List.filterMap_append

@[simp] theorem heardBy_append (handle : Nat) (first second : List (Call κ)) :
    heardBy handle (first ++ second) = heardBy handle first ++ heardBy handle second := by
  simp [heardBy]

end Parts

@[simp] theorem acceptedIn_nil : acceptedIn ([] : List (Happening κ)) = [] := rfl

@[simp] theorem handedIn_nil : handedIn ([] : List (Happening κ)) = [] := rfl

@[simp] theorem heardBy_nil (handle : Nat) : heardBy handle ([] : List (Call κ)) = [] := rfl

theorem heardBy_cons_self (s : Subscription κ) (snapshot : Settings) (calls : List (Call κ)) :
    heardBy s.handle (⟨s, snapshot⟩ :: calls) = snapshot :: heardBy s.handle calls := by
  simp [heardBy]

theorem heardBy_cons_of_ne {handle : Nat} {s : Subscription κ} (other : s.handle ≠ handle)
    (snapshot : Settings) (calls : List (Call κ)) :
    heardBy handle (⟨s, snapshot⟩ :: calls) = heardBy handle calls := by
  simp [heardBy, other]

/-- Steps of deliveries, one after the other, with what happened in them. -/
inductive Delivery.Path : Delivery κ → List (Happening κ) → Delivery κ → Prop
  | nil (d : Delivery κ) : Path d [] d
  | cons {d middle last : Delivery κ} {happening : Option (Happening κ)}
      {happenings : List (Happening κ)} :
      Step d happening middle → Path middle happenings last →
      Path d (happening.toList ++ happenings) last

theorem Delivery.Orderly.path {d last : Delivery κ} {happenings : List (Happening κ)}
    (orderly : d.Orderly) (path : Path d happenings last) : last.Orderly := by
  induction path with
  | nil => exact orderly
  | cons step _ ih => exact ih (orderly.step step)

namespace Machine

variable {m : Machine κ μ ν}

/-- What happens in so many steps of a run. -/
def history (behave : κ → Settings → Script κ μ ν) : Nat → Machine κ μ ν → List (Happening κ)
  | 0, _ => []
  | steps + 1, m => m.happening?.toList ++ history behave steps (m.step behave)

/-- Whether the run was aborted. -/
def aborted (m : Machine κ μ ν) : Bool :=
  match m.control with
  | .ended .aborted => true
  | _ => false

variable (behave : κ → Settings → Script κ μ ν)

/-- Nothing follows the end of a run. -/
theorem step_of_ended (ended : m.outcome?.isSome) : m.step behave = m := by
  cases control : m.control with
  | ended outcome => simp only [step, control]
  | _ => simp [outcome?, control] at ended

theorem run_of_ended (ended : m.outcome?.isSome) (steps : Nat) : m.run behave steps = m := by
  cases steps with
  | zero => rfl
  | succ steps => simp only [run, ended, ↓reduceIte]

/-- A run is nothing but its steps. -/
theorem run_succ (steps : Nat) : m.run behave (steps + 1) = (m.step behave).run behave steps := by
  cases ended : m.outcome?.isSome with
  | false => simp [run, ended]
  | true => rw [step_of_ended behave ended, run_of_ended behave ended, run_of_ended behave ended]

/-- A run in which an abort happened was aborted. -/
theorem aborted_of_mem_history {steps : Nat} (abort : .aborted ∈ m.history behave steps) :
    (m.run behave steps).aborted = true := by
  induction steps generalizing m with
  | zero => cases abort
  | succ steps ih =>
    rw [run_succ]
    rcases List.mem_append.mp abort with now | later
    · have ended : (m.step behave).control = .ended .aborted := by
        simp only [step, control_of_aborted (Option.mem_toList.mp now)]
        rfl
      rw [run_of_ended behave (by simp [outcome?, ended])]
      simp [aborted, ended]
    · exact ih later

namespace Coherent

theorem run (coherent : m.Coherent) (steps : Nat) : (m.run behave steps).Coherent := by
  induction steps generalizing m with
  | zero => exact coherent
  | succ steps ih =>
    rw [run_succ]
    exact ih coherent.step

/-- A run is a path of deliveries. -/
theorem path (coherent : m.Coherent) (steps : Nat) :
    Delivery.Path m.delivery (m.history behave steps) (m.run behave steps).delivery := by
  induction steps generalizing m with
  | zero => exact .nil _
  | succ steps ih =>
    rw [run_succ]
    exact .cons (coherent.advance behave).delivery (ih coherent.step)

/-- The history accounts for every call in the trace. -/
theorem calls_run (coherent : m.Coherent) (steps : Nat) :
    (m.run behave steps).world.calls = m.world.calls ++ callsIn (m.history behave steps) := by
  induction steps generalizing m with
  | zero => exact (List.append_nil _).symm
  | succ steps ih =>
    rw [run_succ, ih coherent.step, (coherent.advance behave).calls, history, callsIn_append,
      List.append_assoc]
    cases m.happening? <;> rfl

end Coherent

end Machine

end TrainingCollar
