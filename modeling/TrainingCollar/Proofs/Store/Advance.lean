import TrainingCollar.Proofs.Store.Delivery

/-! # Steps as deliveries

Every step of a machine is a step of its delivery. `Machine.Advance` says what one has to know of a
step for this, and there is one lemma about it for each operation of the machine. Together they give
`Machine.step_advance`, after which no proof about deliveries has to look at a script or at a stack.
-/

namespace TrainingCollar

variable {κ μ ν : Type}

/-- The hand-out that a control is in the middle of. -/
def Control.turn? : Control κ μ ν → Option (Turn κ)
  | .deliver snapshot waiting _ => some (.of snapshot waiting)
  | .drain _ => some .next
  | _ => none

/-- The hand-out that waits in a frame. -/
def Frame.turn? : Frame κ μ ν → Option (Turn κ)
  | .fanOut _ snapshot waiting _ => some (.of snapshot waiting)
  | .subscribing .. => none

namespace Machine

variable (m : Machine κ μ ν)

/-- The hand-outs in progress, the innermost first. -/
def turns : List (Turn κ) := m.control.turn?.toList ++ m.stack.filterMap Frame.turn?

/-- The machine as those see it who hear of changes. -/
def delivery : Delivery κ := ⟨m.world.store, m.turns⟩

/-- What the next step does for those who hear of changes. -/
def happening? : Option (Happening κ) :=
  match m.control with
  | .run script => m.world.happening? script
  | .deliver snapshot (subscription :: _) _ =>
    if m.world.store.isActive subscription.handle then some (.handed ⟨subscription, snapshot⟩)
    else none
  | .drain _ => m.world.store.pending.head?.map .begun
  | _ => none

/-- What a machine becomes, as far as deliveries are concerned. A run that has ended keeps no frame,
so that the next one starts with an empty stack. -/
structure Advance (m : Machine κ μ ν) (happening : Option (Happening κ)) (next : Machine κ μ ν) :
    Prop where
  delivery : Delivery.Step m.delivery happening next.delivery
  calls : next.world.calls = m.world.calls ++ (happening.bind Happening.call?).toList
  emptied : ∀ outcome, next.control = .ended outcome → next.stack = []

variable {m} {happening : Option (Happening κ)}

theorem turns_of_turn?_eq_none (running : m.control.turn? = none) :
    m.turns = m.stack.filterMap Frame.turn? := by
  rw [turns, running, Option.toList_none, List.nil_append]

/-- A fan-out is waiting if and only if a hand-out is in progress. -/
theorem isFanningOut_eq : m.isFanningOut = !(m.stack.filterMap Frame.turn?).isEmpty := by
  unfold isFanningOut
  induction m.stack with
  | nil => rfl
  | cons frame stack ih =>
    cases frame with
    | fanOut => rfl
    | subscribing => exact ih

namespace Advance

/-- What a machine does that differs only outside its deliveries, this one might as well do. -/
theorem of_same {other next : Machine κ μ ν} (advance : Advance other happening next)
    (store : other.world.store = m.world.store) (calls : other.world.calls = m.world.calls)
    (turns : other.turns = m.turns) : Advance m happening next where
  delivery := by
    have same : m.delivery = other.delivery := by
      rw [Machine.delivery, Machine.delivery, store, turns]
    exact same ▸ advance.delivery
  calls := calls ▸ advance.calls
  emptied := advance.emptied

/-- Neither the store nor a hand-out changes. -/
theorem quiet {next : Machine κ μ ν} (store : next.world.store = m.world.store)
    (calls : next.world.calls = m.world.calls) (turns : next.turns = m.turns)
    (emptied : ∀ outcome, next.control = .ended outcome → next.stack = []) :
    Advance m none next where
  delivery := by
    rw [Machine.delivery, Machine.delivery, store, turns]
    exact .quiet _
  calls := calls.trans (List.append_nil _).symm
  emptied := emptied

/-- A script goes on in a world, with the stack as it is. -/
theorem goOn (running : m.control.turn? = none) {world : World κ μ ν} (script : Script κ μ ν)
    (step : Delivery.Step m.delivery happening ⟨world.store, m.turns⟩)
    (calls : world.calls = m.world.calls ++ (happening.bind Happening.call?).toList) :
    Advance m happening (m.goOn world script) where
  delivery := by
    rw [turns_of_turn?_eq_none running] at step
    exact step
  calls := calls
  emptied := nofun

/-- A script goes on, and nothing happened to the store. -/
theorem goOn_quiet (running : m.control.turn? = none) {world : World κ μ ν} (script : Script κ μ ν)
    (store : world.store = m.world.store) (calls : world.calls = m.world.calls) :
    Advance m none (m.goOn world script) := by
  refine quiet store calls ?_ nofun
  rw [turns_of_turn?_eq_none running]
  rfl

end Advance

/-- A failed attempt leaves its records behind, and the configuration that it ends with. -/
theorem settle_of_error {attempt : Attempt} {fault : Fault} (failed : attempt.outcome = .error fault)
    (answer : Option Fault → Script κ μ ν) :
    m.settle attempt answer =
      m.goOn ({ m.world with store := m.world.store.hold attempt.live }.log attempt.records)
        (answer (some fault)) := by
  simp only [settle, failed]

section Operations

variable (running : m.control.turn? = none)
include running

theorem settle_advance {attempt : Attempt} {mutation : Mutation}
    (clean : attempt.Clean m.world.store.live mutation) (answer : Option Fault → Script κ μ ν) :
    Advance m (attempt.happening? m.world.store.live) (m.settle attempt answer) := by
  have calls := World.calls_log { m.world with store := m.world.store.hold attempt.live }
    attempt.records
  have allCalls := calls.trans (List.append_nil _).symm
  cases result : attempt.outcome with
  | error fault =>
    rw [settle_of_error result]
    rcases clean.kept fault result with kept | ⟨_, slip⟩
    · rw [Attempt.happening?_of_kept result kept]
      refine .goOn_quiet running _ ?_ calls
      change m.world.store.hold attempt.live = m.world.store
      rw [kept]
      rfl
    · rw [Attempt.happening?_of_slip result slip]
      exact .goOn running _ (.slipped slip) allCalls
  | ok =>
    simp only [Attempt.happening?, settle, result]
    split
    · next busy => exact .goOn running _ (.queued clean.guarded busy) allCalls
    · next idle =>
      refine ⟨?_, allCalls, fun _ ended => by cases ended⟩
      rw [delivery, turns_of_turn?_eq_none running]
      exact .opened clean.guarded (Bool.eq_false_iff.mpr idle)

theorem reload_advance (guarded : m.world.store.live.Guarded) (file : Path)
    (answer : Option Fault → Script κ μ ν) :
    Advance m (m.world.reloading? file) (m.reload file answer) := by
  cases present : m.world.files.exists? file with
  | error fault =>
    simp only [reload, World.reloading?, present]
    exact .goOn_quiet running _ rfl rfl
  | ok exists? =>
    cases exists? with
    | false =>
      simp only [reload, World.reloading?, present]
      refine .goOn_quiet running _ (World.store_save ..) ?_
      rw [World.calls_save, World.calls_log]
    | true =>
      have calls := World.calls_log m.world (Settings.load m.world.files file).records
      cases loaded : (Settings.load m.world.files file).outcome with
      | error fault =>
        simp only [reload, World.reloading?, present, loaded]
        exact .goOn_quiet running _ rfl calls
      | ok settings =>
        simp only [reload, World.reloading?, present, loaded]
        let after : Machine κ μ ν :=
          { m with world := m.world.log (Settings.load m.world.files file).records }
        have still : after.control.turn? = none := running
        have clean := Settings.attemptReplace_clean guarded (.settings settings)
        exact .of_same (settle_advance still clean answer) rfl calls rfl

theorem subscribe_advance (listener : Listener κ) (persistence : Option Persistence)
    (script : Script κ μ ν) :
    Advance m (some (.subscribed ⟨⟨m.world.store.nextHandle, listener⟩, m.world.store.live⟩))
      (m.goOn { m.world.subscribe listener with persistence := persistence } script) :=
  .goOn running _ (.subscribed ..) (World.calls_subscribe ..)

theorem unsubscribe_advance (handle : Nat) (persistence : Option Persistence)
    (script : Script κ μ ν) : Advance m (m.world.removal? handle)
      (m.goOn { m.world.unsubscribe handle with persistence := persistence } script) := by
  refine .goOn running _ (World.unsubscribe_step ..) ?_
  have silent : (m.world.removal? handle).bind Happening.call? = none := by
    unfold World.removal?
    split <;> rfl
  rw [silent, Option.toList_none, List.append_nil]
  exact World.calls_unsubscribe ..

theorem enable_advance (p : Persistence) (answer : Option Fault → Script κ μ ν) :
    Advance m (m.world.enabling? p) (m.enable p answer) := by
  unfold enable World.enabling?
  cases p.writer with
  | none => exact subscribe_advance running _ _ _
  | some handle => exact .goOn_quiet running _ rfl rfl

theorem disable_advance (p : Persistence) (answer : Option Fault → Script κ μ ν) :
    Advance m (m.world.disabling? p) (m.disable p answer) := by
  unfold disable World.disabling?
  cases p.writer with
  | none => exact .goOn_quiet running _ rfl rfl
  | some handle => exact unsubscribe_advance running handle _ _

theorem persist_advance {effect? : Persistence → Option (Happening κ)}
    {command : Persistence → (Option Fault → Script κ μ ν) → Machine κ μ ν}
    (answer : Option Fault → Script κ μ ν)
    (advance : ∀ p, Advance m (effect? p) (command p answer)) :
    Advance m (m.world.persistence.bind effect?) (m.persist command answer) := by
  unfold persist
  cases m.world.persistence with
  | none => exact .goOn_quiet running _ rfl rfl
  | some p => exact advance p

theorem edit_advance (change : FileTree → Except Fault FileTree)
    (answer : Option Fault → Script κ μ ν) : Advance m none (m.edit change answer) := by
  unfold edit
  split <;> exact .goOn_quiet running _ rfl rfl

theorem close_advance (fault : Option Fault) : Advance m none (m.close fault) := by
  have turns := turns_of_turn?_eq_none running
  obtain ⟨world, stack, control⟩ := m
  cases stack with
  | nil => exact .quiet rfl rfl turns.symm fun _ _ => rfl
  | cons frame stack =>
    cases frame with
    | fanOut => exact .quiet rfl (World.calls_log ..) turns.symm nofun
    | subscribing => exact .quiet rfl (World.calls_log ..) turns.symm nofun

theorem abort_advance : Advance m (some .aborted) m.abort where
  delivery := by
    have same : (if m.isFanningOut then m.world.store.rest else m.world.store) =
        if m.turns.isEmpty then m.world.store else m.world.store.rest := by
      rw [isFanningOut_eq, turns_of_turn?_eq_none running]
      cases (m.stack.filterMap Frame.turn?).isEmpty <;> rfl
    change Delivery.Step m.delivery _ ⟨if m.isFanningOut then _ else _, []⟩
    rw [same]
    exact .aborted ..
  calls := (List.append_nil _).symm
  emptied _ _ := rfl

end Operations

variable {behave : κ → Settings → Script κ μ ν}

theorem obey_advance (running : m.control.turn? = none) (guarded : m.world.store.live.Guarded)
    (script : Script κ μ ν) : Advance m (m.world.happening? script) (m.obey behave script) := by
  cases script with
  | done => exact close_advance running none
  | fail fault => exact close_advance running (some fault)
  | abort => exact abort_advance running
  | mutate mutation answer => exact settle_advance running (mutation.attempt_clean guarded) answer
  | subscribe callback answer =>
    refine ⟨?_, World.calls_subscribe .., nofun⟩
    rw [delivery, turns_of_turn?_eq_none running]
    exact .subscribed ..
  | unsubscribe handle rest => exact unsubscribe_advance running handle _ _
  | reload answer =>
    exact persist_advance running answer fun p => reload_advance running guarded p.file answer
  | enable answer => exact persist_advance running answer fun p => enable_advance running p answer
  | disable answer => exact persist_advance running answer fun p => disable_advance running p answer
  | edit change answer => exact edit_advance running change answer
  | note text rest => exact .goOn_quiet running _ rfl (World.calls_noted ..)
  | _ => exact .goOn_quiet running _ rfl rfl

/-- Only a script that aborts does so. -/
theorem control_of_aborted (aborts : m.happening? = some .aborted) : m.control = .run .abort := by
  cases control : m.control with
  | run script =>
    rw [happening?, control] at aborts
    rw [m.world.eq_abort_of_happening? aborts]
  | deliver snapshot waiting rest =>
    rw [happening?, control] at aborts
    cases waiting with
    | nil => cases aborts
    | cons subscription waiting =>
      dsimp only at aborts
      split at aborts <;> cases aborts
  | drain rest =>
    rw [happening?, control] at aborts
    obtain ⟨snapshot, _, begun⟩ := Option.map_eq_some_iff.mp aborts
    cases begun
  | ended outcome =>
    rw [happening?, control] at aborts
    cases aborts

theorem call_advance {snapshot : Settings} {subscription : Subscription κ}
    {waiting : List (Subscription κ)} {rest : Script κ μ ν}
    (serving : m.control = .deliver snapshot (subscription :: waiting) rest) :
    Advance m m.happening? (m.call behave snapshot subscription waiting rest) := by
  have turns : m.turns =
      .of snapshot (subscription :: waiting) :: m.stack.filterMap Frame.turn? := by
    rw [Machine.turns, serving]
    rfl
  simp only [call, happening?, serving]
  split
  · next active =>
    have step : Delivery.Step m.delivery (some (.handed ⟨subscription, snapshot⟩))
        ⟨m.world.store, .of snapshot waiting :: m.stack.filterMap Frame.turn?⟩ := by
      rw [delivery, turns]
      exact .handed active
    have calls := m.world.calls_called subscription.handle subscription.listener snapshot
    split
    · exact ⟨step, calls, nofun⟩
    · next file _ =>
      refine ⟨?_, ?_, nofun⟩
      · change Delivery.Step m.delivery _ ⟨(World.save _ file snapshot).1.store, _⟩
        rw [World.store_save]
        exact step
      · rw [World.calls_log, World.calls_save]
        exact calls
  · next inactive =>
    refine ⟨?_, (List.append_nil _).symm, nofun⟩
    rw [delivery, turns]
    exact .skipped (Bool.eq_false_iff.mpr inactive)

/-- The step of a machine whose configuration in force is guarded. -/
theorem step_advance (guarded : m.world.store.live.Guarded)
    (emptied : ∀ outcome, m.control = .ended outcome → m.stack = []) :
    Advance m m.happening? (m.step behave) := by
  have turns : m.turns = m.control.turn?.toList ++ m.stack.filterMap Frame.turn? := rfl
  cases control : m.control with
  | run script =>
    have running : m.control.turn? = none := by rw [control]; rfl
    simp only [step, happening?, control]
    exact obey_advance running guarded script
  | deliver snapshot waiting rest =>
    rw [control] at turns
    cases waiting with
    | nil =>
      simp only [step, happening?, control]
      refine ⟨?_, (List.append_nil _).symm, nofun⟩
      rw [delivery, turns]
      exact .finished ..
    | cons subscription waiting =>
      simp only [step, control]
      exact call_advance control
  | drain rest =>
    rw [control] at turns
    cases waits : m.world.store.pending with
    | nil =>
      simp only [step, happening?, control, waits]
      refine ⟨?_, (List.append_nil _).symm, nofun⟩
      rw [delivery, turns]
      exact .rested waits
    | cons snapshot pending =>
      simp only [step, happening?, control, waits]
      refine ⟨?_, (List.append_nil _).symm, nofun⟩
      rw [delivery, turns]
      exact .begun waits
  | ended outcome =>
    simp only [step, happening?, control]
    exact .quiet rfl rfl rfl emptied

end Machine

end TrainingCollar
