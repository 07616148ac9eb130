import TrainingCollar.Proofs.Store.Course

/-! # One notification

A mutation that is accepted while nothing is being handed out is answered when the new configuration
has been handed to all subscriptions. If their listeners leave the store alone, nothing else happens
before the answer: each subscription is called once, in the order in which they were made, and the
store is at rest again.
-/

namespace TrainingCollar

variable {κ μ ν : Type}

/-- A script that leaves the store alone and ends, with a fault or without. -/
inductive Script.Quiet : Script κ μ ν → Prop
  | done : Quiet .done
  | fail (fault : Fault) : Quiet (.fail fault)
  | look {next : Settings → Script κ μ ν} (rest : ∀ settings, Quiet (next settings)) :
      Quiet (.look next)
  | edit {change : FileTree → Except Fault FileTree} {next : Option Fault → Script κ μ ν}
      (rest : ∀ fault, Quiet (next fault)) : Quiet (.edit change next)
  | recollect {next : μ → Script κ μ ν} (rest : ∀ memory, Quiet (next memory)) : Quiet (.recall next)
  | remember {memory : μ} {next : Script κ μ ν} (rest : Quiet next) : Quiet (.remember memory next)
  | note {text : ν} {next : Script κ μ ν} (rest : Quiet next) : Quiet (.note text next)

/-- A listener that leaves the store alone when it is handed a configuration. Writers always do. -/
def Listener.Quiet (behave : κ → Settings → Script κ μ ν) (snapshot : Settings) : Listener κ → Prop
  | .callback c => (behave c snapshot).Quiet
  | .writer _ => True

/-- A store that is at rest stays as it is when it comes to rest. -/
theorem Store.rest_of_idle {s : Store κ} (idle : s.notifying = false) (nothing : s.pending = []) :
    s.rest = s := by
  rw [rest, ← idle, ← nothing]

namespace Machine

variable {behave : κ → Settings → Script κ μ ν} {m middle later : Machine κ μ ν}

/-- The run of a machine comes to another one. -/
def ComesTo (behave : κ → Settings → Script κ μ ν) (m later : Machine κ μ ν) : Prop :=
  ∃ steps, m.run behave steps = later

namespace ComesTo

theorem refl : m.ComesTo behave m := ⟨0, rfl⟩

theorem step (rest : (m.step behave).ComesTo behave later) : m.ComesTo behave later := by
  obtain ⟨steps, rfl⟩ := rest
  exact ⟨steps + 1, run_succ ..⟩

theorem trans (first : m.ComesTo behave middle) (rest : middle.ComesTo behave later) :
    m.ComesTo behave later := by
  obtain ⟨steps, rfl⟩ := first
  induction steps generalizing m with
  | zero => exact rest
  | succ steps ih =>
    rw [run_succ] at rest
    exact (ih rest).step

end ComesTo

section Frames

variable {snapshot : Settings} {waiting : List (Subscription κ)} {next : Script κ μ ν}
  {stack : List (Frame κ μ ν)}

/-- A quiet callback gives its hand-out the turn back. -/
theorem comesTo_of_quiet {script : Script κ μ ν} (quiet : script.Quiet) (world : World κ μ ν)
    (handle : Nat) : ∃ after : World κ μ ν, after.store = world.store ∧ after.calls = world.calls ∧
      ComesTo behave ⟨world, .fanOut handle snapshot waiting next :: stack, .run script⟩
        ⟨after, stack, .deliver snapshot waiting next⟩ := by
  induction quiet generalizing world with
  | done => exact ⟨world.log [], rfl, World.calls_log .., .step .refl⟩
  | fail fault => exact ⟨world.log [failedRecord handle fault], rfl, World.calls_log .., .step .refl⟩
  | look _ ih =>
    obtain ⟨after, store, calls, comes⟩ := ih world.store.live world
    exact ⟨after, store, calls, comes.step⟩
  | @edit change _ _ ih =>
    cases changed : change world.files with
    | error fault =>
      obtain ⟨after, store, calls, comes⟩ := ih (some fault) world
      refine ⟨after, store, calls, .step ?_⟩
      simp only [Machine.step, obey, Machine.edit, changed]
      exact comes
    | ok files =>
      obtain ⟨after, store, calls, comes⟩ := ih none { world with files := files }
      refine ⟨after, store, calls, .step ?_⟩
      simp only [Machine.step, obey, Machine.edit, changed]
      exact comes
  | recollect _ ih =>
    obtain ⟨after, store, calls, comes⟩ := ih world.memory world
    exact ⟨after, store, calls, comes.step⟩
  | @remember memory _ _ ih =>
    obtain ⟨after, store, calls, comes⟩ := ih { world with memory := memory }
    exact ⟨after, store, calls, comes.step⟩
  | @note text _ _ ih =>
    obtain ⟨after, store, calls, comes⟩ := ih (world.happen (.noted text))
    exact ⟨after, store, calls.trans (World.calls_noted ..), comes.step⟩

/-- A subscription that exists is served, if its listener is quiet. -/
theorem comesTo_of_served {world : World κ μ ν} {s : Subscription κ}
    (active : world.store.isActive s.handle = true) (quiet : s.listener.Quiet behave snapshot) :
    ∃ after : World κ μ ν, after.store = world.store ∧ after.calls = world.calls ++ [⟨s, snapshot⟩] ∧
      ComesTo behave ⟨world, stack, .deliver snapshot (s :: waiting) next⟩
        ⟨after, stack, .deliver snapshot waiting next⟩ := by
  obtain ⟨handle, listener⟩ := s
  let called : World κ μ ν := world.happen (.called handle listener snapshot)
  have calls : called.calls = world.calls ++ [⟨⟨handle, listener⟩, snapshot⟩] := World.calls_called ..
  cases listener with
  | callback c =>
    obtain ⟨after, store, same, comes⟩ : ∃ after : World κ μ ν, after.store = called.store ∧
        after.calls = called.calls ∧
          ComesTo behave ⟨called, .fanOut handle snapshot waiting next :: stack, .run (behave c snapshot)⟩
            ⟨after, stack, .deliver snapshot waiting next⟩ := comesTo_of_quiet quiet called handle
    refine ⟨after, store, same.trans calls, .step ?_⟩
    simp only [Machine.step, call, active, ↓reduceIte]
    exact comes
  | writer file =>
    let saved := called.save file snapshot
    refine ⟨saved.1.log (saved.2.toList.map (failedRecord handle)), World.store_save .., ?_, .step ?_⟩
    · rw [World.calls_log, World.calls_save, calls]
    · simp only [Machine.step, call, active, ↓reduceIte]
      exact .refl

/-- All that wait are served in their order, if they exist and their listeners are quiet. -/
theorem comesTo_of_waiting (world : World κ μ ν)
    (active : ∀ s ∈ waiting, world.store.isActive s.handle = true)
    (quiet : ∀ s ∈ waiting, s.listener.Quiet behave snapshot) :
    ∃ after : World κ μ ν, after.store = world.store ∧
      after.calls = world.calls ++ waiting.map (⟨·, snapshot⟩) ∧
        ComesTo behave ⟨world, stack, .deliver snapshot waiting next⟩ ⟨after, stack, .drain next⟩ := by
  induction waiting generalizing world with
  | nil => exact ⟨world, rfl, (List.append_nil _).symm, .step .refl⟩
  | cons s rest ih =>
    obtain ⟨firstActive, othersActive⟩ := List.forall_mem_cons.mp active
    obtain ⟨firstQuiet, othersQuiet⟩ := List.forall_mem_cons.mp quiet
    obtain ⟨middle, same, called, serves⟩ := comesTo_of_served firstActive firstQuiet
    rw [← same] at othersActive
    obtain ⟨after, store, calls, comes⟩ := ih middle othersActive othersQuiet
    refine ⟨after, store.trans same, ?_, serves.trans comes⟩
    rw [calls, called, List.map_cons, List.append_assoc]
    rfl

/-- The oldest of the pending configurations is handed out next. -/
theorem step_of_pending {world : World κ μ ν} {pending : List Settings}
    (waits : world.store.pending = snapshot :: pending) :
    step behave ⟨world, stack, .drain next⟩ =
      ⟨{ world with store := { world.store with pending := pending } }, stack,
        .deliver snapshot world.store.subscriptions next⟩ := by
  simp only [Machine.step, waits]

/-- With nothing pending any more the store is at rest. -/
theorem comesTo_of_drained {world : World κ μ ν} (empty : world.store.pending = []) :
    ComesTo behave ⟨world, stack, .drain next⟩
      ⟨{ world with store := world.store.rest }, stack, .run next⟩ := by
  refine .step ?_
  simp only [Machine.step, empty]
  exact .refl

/-- What waits alone is handed out, and then the store is at rest. -/
theorem comesTo_of_drain {world after : World κ μ ν} (waits : world.store.pending = [snapshot])
    (empty : after.store.pending = [])
    (serves : ComesTo behave
      ⟨{ world with store := { world.store with pending := [] } }, stack,
        .deliver snapshot world.store.subscriptions next⟩ ⟨after, stack, .drain next⟩) :
    ComesTo behave ⟨world, stack, .drain next⟩
      ⟨{ after with store := after.store.rest }, stack, .run next⟩ := by
  refine .step ?_
  rw [step_of_pending waits]
  exact serves.trans (comesTo_of_drained empty)

end Frames

/-- A mutation that is accepted while the store is at rest, and whose subscribers are quiet, calls each
of them once and in their order, and nobody else, and is answered with the store at rest again. -/
theorem Coherent.notifies (coherent : m.Coherent) (idle : m.world.store.notifying = false)
    {mutation : Mutation} {answer : Option Fault → Script κ μ ν} {settings : Settings}
    (asks : m.control = .run (.mutate mutation answer))
    (accepted : (mutation.attempt m.world.store.live).outcome = .ok ())
    (isLive : (mutation.attempt m.world.store.live).live = settings)
    (quiet : ∀ s ∈ m.world.store.subscriptions, s.listener.Quiet behave settings) :
    ∃ after : World κ μ ν, after.store = m.world.store.hold settings ∧
      after.calls = m.world.calls ++ m.world.store.subscriptions.map (⟨·, settings⟩) ∧
        m.ComesTo behave (m.goOn after (answer none)) := by
  have nothing : m.world.store.pending = [] := coherent.orderly.idle idle
  let store := m.world.store.hold settings
  let logged : World κ μ ν := m.world.log (mutation.attempt m.world.store.live).records
  let serving : World κ μ ν := { logged with store := { store with pending := [], notifying := true } }
  -- The new configuration is all that is pending, so it is handed out at once.
  have opened : m.step behave =
      ⟨{ logged with store := { store.announce with notifying := true } }, m.stack,
        .drain (answer none)⟩ := by
    simp only [Machine.step, asks, obey, settle, accepted, isLive]
    exact if_neg (Bool.eq_false_iff.mp idle)
  have pending : store.announce.pending = [settings] := congrArg (· ++ [settings]) nothing
  have active : ∀ s ∈ serving.store.subscriptions, serving.store.isActive s.handle = true :=
    fun s member => Store.isActive_iff.mpr ⟨s, member, rfl⟩
  obtain ⟨after, same, calls, serves⟩ : ∃ after : World κ μ ν, after.store = serving.store ∧
      after.calls = serving.calls ++ m.world.store.subscriptions.map (⟨·, settings⟩) ∧
        ComesTo behave ⟨serving, m.stack, .deliver settings m.world.store.subscriptions (answer none)⟩
          ⟨after, m.stack, .drain (answer none)⟩ := comesTo_of_waiting serving active quiet
  refine ⟨{ after with store := after.store.rest }, ?_, ?_, ?_⟩
  · calc after.store.rest
      _ = store.rest := by rw [same]; rfl
      _ = store := Store.rest_of_idle idle nothing
  · exact calls.trans (congrArg (· ++ _) (World.calls_log ..))
  · refine .step ?_
    rw [opened]
    exact comesTo_of_drain pending (congrArg Store.pending same) serves

end Machine

end TrainingCollar
