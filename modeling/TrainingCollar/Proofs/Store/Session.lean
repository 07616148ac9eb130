import TrainingCollar.Proofs.Store.Trace
import TrainingCollar.Proofs.Store.Watching

/-! # Observers have no influence

A session is a sequence of mutations that are called at the top, one after the other, each of them with
an answer: how the call ended, and the configuration in force after it. Between the calls other scripts
may be run that only watch. If callbacks only watch as well, the answers are those that the mutations
have on their own, without a store and without anybody who hears of them. So they are the same in
sessions with other callbacks, other subscriptions, other files.
-/

namespace TrainingCollar

variable {κ μ ν κ' μ' ν' : Type}

/-- The script that calls a mutation and ends with its fault, if there is one. -/
def Mutation.call (mutation : Mutation) : Script κ μ ν :=
  .mutate mutation fun fault => fault.elim .done .fail

/-- How a call ends that comes to this. -/
def Outcome.of {α : Type} : Except Fault α → Outcome
  | .ok _ => .returned
  | .error fault => .failed fault

/-- What a caller learns of a mutation: how the call ended, and the configuration in force then. -/
structure Answer where
  mutation : Mutation
  outcome : Outcome
  live : Settings

namespace Settings

/-- The answers to mutations that are tried one after the other, with nobody listening. -/
def replay : Settings → List Mutation → List Answer
  | _, [] => []
  | live, mutation :: rest =>
    let attempt := mutation.attempt live
    ⟨mutation, .of attempt.outcome, attempt.live⟩ :: attempt.live.replay rest

/-- The configuration that is left by mutations that are tried one after the other. -/
def afterAll (live : Settings) (mutations : List Mutation) : Settings :=
  mutations.foldl (fun live mutation => (mutation.attempt live).live) live

end Settings

namespace Machine

variable {behave : κ → Settings → Script κ μ ν} {others : κ' → Settings → Script κ' μ' ν'}
  {m : Machine κ μ ν}

/-- Mutations are called at the top, with these answers, and anything that only watches is run before,
between and after them. -/
inductive Session (behave : κ → Settings → Script κ μ ν) :
    World κ μ ν → List Answer → World κ μ ν → Prop
  | nil (world : World κ μ ν) : Session behave world [] world
  | call {world last : World κ μ ν} {mutation : Mutation} {steps : Nat} {outcome : Outcome}
      {answers : List Answer}
      (ends : ((start world mutation.call).run behave steps).outcome? = some outcome)
      (rest : Session behave ((start world mutation.call).run behave steps).world answers last) :
      Session behave world
        (⟨mutation, outcome, ((start world mutation.call).run behave steps).world.store.live⟩ :: answers)
        last
  | watch {world last : World κ μ ν} {script : Script κ μ ν} {steps : Nat} {answers : List Answer}
      (watches : script.Watches) (ends : ((start world script).run behave steps).outcome?.isSome)
      (rest : Session behave ((start world script).run behave steps).world answers last) :
      Session behave world answers last

theorem ending?_of_outcome? {outcome : Outcome} (ended : m.outcome? = some outcome) :
    m.ending? = some outcome := by
  unfold outcome? at ended
  split at ended
  · next control =>
    rw [ending?, control]
    exact ended
  · cases ended

/-- Once a mutation that is called at the top has been tried, its call can only end in one way, at once
or when all that is pending has been handed out. -/
theorem step_call (behave : κ → Settings → Script κ μ ν) (world : World κ μ ν) (mutation : Mutation) :
    let attempt := mutation.attempt world.store.live
    ∃ (after : World κ μ ν) (control : Control κ μ ν) (script : Script κ μ ν),
      (start world mutation.call).step behave = ⟨after, [], control⟩ ∧
      (control = .run script ∨ control = .drain script) ∧ after.store.live = attempt.live ∧
      script.Watches ∧ script.end? = some (.of attempt.outcome) := by
  intro attempt
  have settles : (start world mutation.call).step behave =
      (start world mutation.call).settle attempt fun fault => fault.elim .done .fail := rfl
  simp only [settles, settle]
  cases attempt.outcome with
  | error fault => exact ⟨_, _, .fail fault, rfl, .inl rfl, rfl, .fail fault, rfl⟩
  | ok =>
    dsimp only
    split
    · exact ⟨_, _, .done, rfl, .inl rfl, rfl, .done, rfl⟩
    · exact ⟨_, _, .done, rfl, .inr rfl, rfl, .done, rfl⟩

/-- A script that is at its end ends the run in the same way, if nothing is below it. -/
theorem outcome?_of_end? {world : World κ μ ν} {script : Script κ μ ν} {outcome : Outcome}
    (ends : script.end? = some outcome) :
    (step behave ⟨world, [], .run script⟩).outcome? = some outcome := by
  cases script with
  | done | fail fault => exact ends
  | _ => cases ends

section Watching

variable (callbacks : ∀ c snapshot, (behave c snapshot).Watches)
include callbacks

/-- Whoever listens, the answer to a mutation is the one that it has on its own. -/
theorem answer_of_call {world : World κ μ ν} {mutation : Mutation} {steps : Nat} {outcome : Outcome}
    (ends : ((start world mutation.call).run behave steps).outcome? = some outcome) :
    outcome = .of (mutation.attempt world.store.live).outcome ∧
      ((start world mutation.call).run behave steps).world.store.live =
        (mutation.attempt world.store.live).live := by
  cases steps with
  | zero => cases ends
  | succ steps =>
    obtain ⟨after, control, script, next, waits, live, watches, certain⟩ :=
      step_call behave world mutation
    have goesOn : control.script? = some script := by rcases waits with rfl | rfl <;> rfl
    have watching : Watching ⟨after, [], control⟩ :=
      ⟨fun _ same => Option.some.inj (goesOn.symm.trans same) ▸ watches, List.forall_mem_nil _⟩
    rw [run_succ, next] at ends ⊢
    have follows := watching.run callbacks steps
    have ending := follows.ending _ ((ending?_of_script? goesOn).trans certain)
    rw [ending?_of_outcome? ends] at ending
    exact ⟨Option.some.inj ending, follows.live.trans live⟩

/-- The answers of a session are those that its mutations have on their own. -/
theorem Session.answers_eq {world last : World κ μ ν} {answers : List Answer}
    (session : Session behave world answers last) :
    answers = world.store.live.replay (answers.map Answer.mutation) ∧
      last.store.live = world.store.live.afterAll (answers.map Answer.mutation) := by
  induction session with
  | nil => exact ⟨rfl, rfl⟩
  | call ends rest ih =>
    obtain ⟨outcome, live⟩ := answer_of_call callbacks ends
    rw [live] at ih
    rw [List.map_cons, Settings.replay, outcome, live]
    exact ⟨congrArg _ ih.1, ih.2⟩
  | @watch world _ script steps _ watches ends rest ih =>
    have live := ((Watching.start world watches).run callbacks steps).live
    rw [live] at ih
    exact ih

/-- If callbacks come to an end, so does a call of a mutation. -/
theorem exists_ended_call (returns : Returns behave) (world : World κ μ ν) (mutation : Mutation) :
    ∃ steps, ((start world mutation.call).run behave steps).outcome?.isSome := by
  obtain ⟨after, control, script, next, waits, _, _, certain⟩ := step_call behave world mutation
  have ended : ∃ later : Machine κ μ ν, ComesTo behave ⟨after, [], control⟩ later ∧
      later.outcome? = some (.of (mutation.attempt world.store.live).outcome) := by
    rcases waits with rfl | rfl
    · exact ⟨_, .step .refl, outcome?_of_end? certain⟩
    · obtain ⟨drained, drains⟩ := comesTo_of_draining callbacks returns after
      exact ⟨_, drains.trans (.step .refl), outcome?_of_end? certain⟩
  obtain ⟨later, comes, isOutcome⟩ := ended
  rw [← next] at comes
  obtain ⟨steps, rfl⟩ := comes.step
  exact ⟨steps, Option.isSome_iff_exists.mpr ⟨_, isOutcome⟩⟩

/-- If callbacks come to an end, mutations can be called one after the other in any world. -/
theorem exists_session (returns : Returns behave) (world : World κ μ ν) (mutations : List Mutation) :
    ∃ answers last, Session behave world answers last ∧ answers.map Answer.mutation = mutations := by
  induction mutations generalizing world with
  | nil => exact ⟨[], world, .nil world, rfl⟩
  | cons mutation rest ih =>
    obtain ⟨steps, ends⟩ := exists_ended_call callbacks returns world mutation
    obtain ⟨outcome, isOutcome⟩ := Option.isSome_iff_exists.mp ends
    obtain ⟨answers, last, session, same⟩ := ih ((start world mutation.call).run behave steps).world
    exact ⟨_, last, .call isOutcome session, congrArg _ same⟩

end Watching

/-- Another script may be run instead. -/
theorem Coherent.rerun (coherent : m.Coherent) (running : m.control.turn? = none)
    (script : Script κ μ ν) : Coherent { m with control := .run script } := by
  let other : Machine κ μ ν := { m with control := .run script }
  have same : other.delivery = m.delivery := by
    rw [delivery, delivery, turns_of_turn?_eq_none running, turns_of_turn?_eq_none rfl]
  refine ⟨⟨same ▸ coherent.guarded.delivery, coherent.guarded.calls⟩, same ▸ coherent.orderly, ?_⟩
  intro outcome ended
  cases ended

/-- The machine whose callback returns now, whatever it was about to do. -/
def returning (m : Machine κ μ ν) : Machine κ μ ν := { m with control := .run .done }

/-- A callback that fails and one that returns leave machines that differ in their traces only, and
not in the calls that are found there. -/
theorem alike_of_failing (behave : κ → Settings → Script κ μ ν) {fault : Fault}
    (failing : m.control = .run (.fail fault)) (called : m.stack ≠ []) :
    (m.step behave).Alike (m.returning.step behave) ∧
      (m.returning.step behave).world.calls = (m.step behave).world.calls := by
  obtain ⟨world, stack, control⟩ := m
  obtain rfl : control = _ := failing
  have same : world.Alike world := ⟨world.trace, rfl⟩
  cases stack with
  | nil => exact absurd rfl called
  | cons frame stack =>
    cases frame <;>
      exact ⟨.of (same.log _ _) stack _, (World.calls_log ..).trans (World.calls_log ..).symm⟩

/-- Whether a callback fails or returns at some point, the machines differ in their traces only from then
on, and everybody is called with the same configurations. -/
theorem Reachable.returning_run (reachable : m.Reachable behave) {fault : Fault}
    (failing : m.control = .run (.fail fault)) (called : m.stack ≠ []) (steps : Nat) :
    (m.run behave (steps + 1)).Alike (m.returning.run behave (steps + 1)) ∧
      (m.returning.run behave (steps + 1)).world.calls = (m.run behave (steps + 1)).world.calls := by
  have running : m.control.turn? = none := by rw [failing]; rfl
  have coherent := reachable.coherent
  have returned : m.returning.Coherent := coherent.rerun running .done
  obtain ⟨alike, calls⟩ := alike_of_failing behave failing called
  obtain ⟨histories, after⟩ : (m.returning.step behave).history behave steps =
      (m.step behave).history behave steps ∧
        ((m.step behave).run behave steps).Alike ((m.returning.step behave).run behave steps) :=
    alike.run steps
  rw [run_succ, run_succ]
  refine ⟨after, ?_⟩
  rw [coherent.step.calls_run, returned.step.calls_run, calls, histories]

end Machine

/-! A nosy callback looks at the configuration, subscribes a calm one, removes it again and fails. -/

/-- Callbacks that only watch. -/
inductive Onlooker where
  | nosy
  | calm

namespace Onlooker

/-- What the callbacks do. -/
def behave : Onlooker → Settings → Script Onlooker Unit Unit
  | nosy, _ => .look fun _ => .subscribe .calm fun handle => .unsubscribe handle (.fail .wrongKind)
  | calm, _ => .done

/-- What callbacks do of which there are none. -/
def nobody (c : Empty) (_ : Settings) : Script Empty Unit Unit := nomatch c

theorem behave_watches : ∀ c snapshot, (behave c snapshot).Watches
  | nosy, _ => .look fun _ => .subscribe fun _ => .unsubscribe (.fail _)
  | calm, _ => .done

theorem behave_returns : Machine.Returns behave
  | nosy, _, _ => ⟨6, rfl⟩
  | calm, _, _ => ⟨1, rfl⟩

/-- The nosy callback subscribes to a new store. -/
def arrival : Machine Onlooker Unit Unit :=
  .start ⟨.ofSettings .defaults, .empty [], none, (), [.logged .passed]⟩ (.subscribe .nosy fun _ => .done)

theorem arrival_reachable (steps : Nat) : (arrival.run behave steps).Reachable behave :=
  (Machine.Reachable.first Store.start_null _ none () _).run steps

end Onlooker

namespace Machine

end Machine

end TrainingCollar
