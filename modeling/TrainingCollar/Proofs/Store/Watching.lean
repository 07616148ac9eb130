import TrainingCollar.Proofs.Store.Notification

/-! # Callbacks that only watch

A script watches if it leaves the configuration in force alone: it may look at it, subscribe and
unsubscribe, use files and memory, and fail, but it neither mutates nor aborts. While nothing but such
scripts is on the way, no step changes the configuration in force, adds to what is pending, or has an
influence on how the script at the bottom ends.

What a callback does on top of a stack is what it does on its own, until it returns to the frame below.
So hand-outs come to an end if every callback does on its own.
-/

namespace TrainingCollar

variable {κ μ ν : Type}

/-- A script that neither changes the configuration nor aborts. -/
inductive Script.Watches : Script κ μ ν → Prop
  | done : Watches .done
  | fail (fault : Fault) : Watches (.fail fault)
  | subscribe {callback : κ} {next : Nat → Script κ μ ν} (rest : ∀ handle, Watches (next handle)) :
      Watches (.subscribe callback next)
  | unsubscribe {handle : Nat} {next : Script κ μ ν} (rest : Watches next) :
      Watches (.unsubscribe handle next)
  | look {next : Settings → Script κ μ ν} (rest : ∀ settings, Watches (next settings)) :
      Watches (.look next)
  | enable {next : Option Fault → Script κ μ ν} (rest : ∀ fault, Watches (next fault)) :
      Watches (.enable next)
  | disable {next : Option Fault → Script κ μ ν} (rest : ∀ fault, Watches (next fault)) :
      Watches (.disable next)
  | edit {change : FileTree → Except Fault FileTree} {next : Option Fault → Script κ μ ν}
      (rest : ∀ fault, Watches (next fault)) : Watches (.edit change next)
  | recollect {next : μ → Script κ μ ν} (rest : ∀ memory, Watches (next memory)) :
      Watches (.recall next)
  | remember {memory : μ} {next : Script κ μ ν} (rest : Watches next) : Watches (.remember memory next)
  | note {text : ν} {next : Script κ μ ν} (rest : Watches next) : Watches (.note text next)

/-- How a script ends that does nothing any more. -/
def Script.end? : Script κ μ ν → Option Outcome
  | .done => some .returned
  | .fail fault => some (.failed fault)
  | _ => none

/-- The script that goes on when a frame is done. -/
def Frame.next : Frame κ μ ν → Script κ μ ν
  | .fanOut _ _ _ next | .subscribing _ next => next

/-- What is done next when the callback returns that a frame waits for. -/
def Frame.resumption : Frame κ μ ν → Control κ μ ν
  | .fanOut _ snapshot waiting next => .deliver snapshot waiting next
  | .subscribing _ next => .run next

/-- The script that a control goes on with. -/
def Control.script? : Control κ μ ν → Option (Script κ μ ν)
  | .run script | .deliver _ _ script | .drain script => some script
  | .ended _ => none

/-- The script at the bottom of a stack, with another one on top. -/
def Script.bottom : Script κ μ ν → List (Frame κ μ ν) → Script κ μ ν
  | script, [] => script
  | _, frame :: stack => frame.next.bottom stack

/-- The configuration in force and what is pending stay the same. -/
structure World.Keeps (w v : World κ μ ν) : Prop where
  live : v.store.live = w.store.live
  pending : v.store.pending = w.store.pending

namespace World.Keeps

variable (w : World κ μ ν)

theorem same {w v : World κ μ ν} (store : v.store = w.store) : w.Keeps v :=
  ⟨congrArg Store.live store, congrArg Store.pending store⟩

theorem subscribe (listener : Listener κ) : w.Keeps (w.subscribe listener) := ⟨rfl, rfl⟩

theorem unsubscribe (handle : Nat) : w.Keeps (w.unsubscribe handle) := by
  unfold World.unsubscribe
  split <;> exact ⟨rfl, rfl⟩

end World.Keeps

namespace Machine

variable {behave : κ → Settings → Script κ μ ν} {m next : Machine κ μ ν}

/-- How the run will end, if this is certain already: the script at the bottom does nothing any more. -/
def ending? (m : Machine κ μ ν) : Option Outcome :=
  match m.control with
  | .ended outcome => some outcome
  | .run script | .deliver _ _ script | .drain script => (script.bottom m.stack).end?

theorem ending?_of_script? {script : Script κ μ ν} (goesOn : m.control.script? = some script) :
    m.ending? = (script.bottom m.stack).end? := by
  obtain ⟨world, stack, control⟩ := m
  cases control <;> cases goesOn <;> rfl

/-- All scripts that are on the way watch. -/
structure Watching (m : Machine κ μ ν) : Prop where
  control : ∀ script, m.control.script? = some script → script.Watches
  stack : ∀ frame ∈ m.stack, frame.next.Watches

/-- What a machine becomes by a step in which scripts only watch. -/
structure Follows (m next : Machine κ μ ν) : Prop where
  watching : next.Watching
  live : next.world.store.live = m.world.store.live
  pending : next.world.store.pending <:+ m.world.store.pending
  ending : ∀ outcome, m.ending? = some outcome → next.ending? = some outcome

theorem Watching.start (world : World κ μ ν) {script : Script κ μ ν} (watches : script.Watches) :
    (start world script).Watching where
  control _ same := Option.some.inj same ▸ watches
  stack := List.forall_mem_nil _

/-- A script that is not at its end does not decide how the run ends. -/
theorem bottom_of_ending? {script : Script κ μ ν} {outcome : Outcome} (running : m.control = .run script)
    (goesOn : script.end? = none) (certain : m.ending? = some outcome) (other : Script κ μ ν) :
    (other.bottom m.stack).end? = some outcome := by
  obtain ⟨world, stack, control⟩ := m
  obtain rfl : control = _ := running
  cases stack with
  | nil => exact absurd (goesOn.symm.trans certain) nofun
  | cons frame stack => exact certain

namespace Watching

variable (watching : m.Watching) {script : Script κ μ ν}
include watching

section Commands

variable (running : m.control = .run script) (goesOn : script.end? = none)
include running goesOn

/-- Another script goes on with the same stack. -/
theorem goOn {rest : Script κ μ ν} {world : World κ μ ν} (keeps : m.world.Keeps world)
    (watches : rest.Watches) : m.Follows (m.goOn world rest) where
  watching := ⟨fun _ same => Option.some.inj same ▸ watches, watching.stack⟩
  live := keeps.live
  pending := keeps.pending ▸ List.suffix_refl _
  ending _ certain := bottom_of_ending? running goesOn certain rest

theorem persist {answer : Option Fault → Script κ μ ν}
    {command : Persistence → (Option Fault → Script κ μ ν) → Machine κ μ ν}
    (watches : ∀ fault, (answer fault).Watches) (follows : ∀ p, m.Follows (command p answer)) :
    m.Follows (m.persist command answer) := by
  unfold Machine.persist
  split
  · exact follows _
  · exact watching.goOn running goesOn (.same rfl) (watches _)

theorem enable {answer : Option Fault → Script κ μ ν} (watches : ∀ fault, (answer fault).Watches)
    (p : Persistence) : m.Follows (m.enable p answer) := by
  unfold Machine.enable
  split
  · exact watching.goOn running goesOn (.same rfl) (watches _)
  · exact watching.goOn running goesOn ⟨rfl, rfl⟩ (watches _)

theorem disable {answer : Option Fault → Script κ μ ν} (watches : ∀ fault, (answer fault).Watches)
    (p : Persistence) : m.Follows (m.disable p answer) := by
  unfold Machine.disable
  split
  · exact watching.goOn running goesOn (.same rfl) (watches _)
  · next handle _ =>
    have keeps := World.Keeps.unsubscribe m.world handle
    exact watching.goOn running goesOn ⟨keeps.live, keeps.pending⟩ (watches _)

theorem edit {answer : Option Fault → Script κ μ ν} (watches : ∀ fault, (answer fault).Watches)
    (change : FileTree → Except Fault FileTree) : m.Follows (m.edit change answer) := by
  unfold Machine.edit
  split <;> exact watching.goOn running goesOn (.same rfl) (watches _)

end Commands

/-- A script that is at its end makes way for what waits for it, or ends the run. -/
theorem close (fault : Option Fault) (running : m.control = .run script)
    (ends : script.end? = some (fault.elim .returned .failed)) : m.Follows (m.close fault) := by
  obtain ⟨world, stack, control⟩ := m
  obtain rfl : control = _ := running
  cases stack with
  | nil =>
    refine ⟨⟨nofun, List.forall_mem_nil _⟩, rfl, List.suffix_refl _, fun outcome certain => ?_⟩
    cases fault <;> exact ends.symm.trans certain
  | cons frame stack =>
    obtain ⟨first, others⟩ := List.forall_mem_cons.mp watching.stack
    cases frame <;> exact ⟨⟨fun _ same => Option.some.inj same ▸ first, others⟩, rfl,
      List.suffix_refl _, fun _ certain => certain⟩

variable (callbacks : ∀ c snapshot, (behave c snapshot).Watches)
include callbacks

/-- A callback that is called on top of the stack watches as well. -/
theorem push (frame : Frame κ μ ν) (waits : frame.next.Watches) (c : κ) (snapshot : Settings)
    {world : World κ μ ν} (keeps : m.world.Keeps world)
    (ending : ∀ outcome, m.ending? = some outcome →
      (frame.next.bottom m.stack).end? = some outcome) :
    m.Follows ⟨world, frame :: m.stack, .run (behave c snapshot)⟩ where
  watching := ⟨fun _ same => Option.some.inj same ▸ callbacks c snapshot,
    List.forall_mem_cons.mpr ⟨waits, watching.stack⟩⟩
  live := keeps.live
  pending := keeps.pending ▸ List.suffix_refl _
  ending := ending

theorem obey (running : m.control = .run script) : m.Follows (m.obey behave script) := by
  cases watching.control script (congrArg Control.script? running) with
  | done => exact watching.close none running rfl
  | fail fault => exact watching.close (some fault) running rfl
  | subscribe rest =>
    exact watching.push callbacks (.subscribing _ _) (rest _) _ _ (.subscribe ..)
      fun _ certain => bottom_of_ending? running rfl certain _
  | unsubscribe rest => exact watching.goOn running rfl (.unsubscribe ..) rest
  | look rest => exact watching.goOn running rfl (.same rfl) (rest _)
  | enable rest => exact watching.persist running rfl rest (watching.enable running rfl rest)
  | disable rest => exact watching.persist running rfl rest (watching.disable running rfl rest)
  | edit rest => exact watching.edit running rfl rest _
  | recollect rest => exact watching.goOn running rfl (.same rfl) (rest _)
  | remember rest => exact watching.goOn running rfl (.same rfl) rest
  | note rest => exact watching.goOn running rfl (.same rfl) rest

theorem call {snapshot : Settings} {subscription : Subscription κ} {waiting : List (Subscription κ)}
    {rest : Script κ μ ν} (serving : m.control = .deliver snapshot (subscription :: waiting) rest) :
    m.Follows (m.call behave snapshot subscription waiting rest) := by
  have waits : rest.Watches := watching.control rest (congrArg Control.script? serving)
  have ending (outcome : Outcome) (certain : m.ending? = some outcome) :
      (rest.bottom m.stack).end? = some outcome :=
    (ending?_of_script? (congrArg Control.script? serving)).symm.trans certain
  unfold Machine.call
  split
  · split
    · exact watching.push callbacks (.fanOut ..) waits _ _ (.same rfl) ending
    · next file _ =>
      have same := World.store_save
        (m.world.happen (.called subscription.handle subscription.listener snapshot)) file snapshot
      refine ⟨⟨fun _ same => Option.some.inj same ▸ waits, watching.stack⟩, congrArg Store.live same,
        ?_, ending⟩
      exact congrArg Store.pending same ▸ List.suffix_refl _
  · exact ⟨⟨fun _ same => Option.some.inj same ▸ waits, watching.stack⟩, rfl, List.suffix_refl _, ending⟩

theorem step : m.Follows (m.step behave) := by
  obtain ⟨world, stack, control⟩ := m
  cases control with
  | run script => exact watching.obey callbacks rfl
  | deliver snapshot waiting rest =>
    cases waiting with
    | nil =>
      exact ⟨⟨watching.control, watching.stack⟩, rfl, List.suffix_refl _, fun _ certain => certain⟩
    | cons subscription waiting => exact watching.call callbacks rfl
  | drain rest =>
    have watches : rest.Watches := watching.control rest rfl
    simp only [Machine.step]
    split
    · exact ⟨⟨watching.control, watching.stack⟩, rfl, List.nil_suffix, fun _ certain => certain⟩
    · next waits =>
      refine ⟨⟨watching.control, watching.stack⟩, rfl, ?_, fun _ certain => certain⟩
      exact waits ▸ List.suffix_cons ..
  | ended outcome => exact ⟨watching, rfl, List.suffix_refl _, fun _ certain => certain⟩

theorem run (steps : Nat) : m.Follows (m.run behave steps) := by
  induction steps generalizing m with
  | zero => exact ⟨watching, rfl, List.suffix_refl _, fun _ certain => certain⟩
  | succ steps ih =>
    have first := watching.step callbacks
    have rest := ih first.watching
    rw [run_succ]
    exact ⟨rest.watching, rest.live.trans first.live, rest.pending.trans first.pending,
      fun outcome certain => rest.ending outcome (first.ending outcome certain)⟩

end Watching

/-! ## On top of a stack -/

/-- The machine with more frames below its own. -/
def onTop (m : Machine κ μ ν) (frames : List (Frame κ μ ν)) : Machine κ μ ν :=
  { m with stack := m.stack ++ frames }

/-- The end of a callback or of a run, with more frames below. -/
theorem close_onTop (m : Machine κ μ ν) (fault : Option Fault) (frame : Frame κ μ ν)
    (frames : List (Frame κ μ ν)) :
    ((m.close fault).outcome? = none ∧
        (m.onTop (frame :: frames)).close fault = (m.close fault).onTop (frame :: frames)) ∨
      ∃ records, (m.onTop (frame :: frames)).close fault =
        ⟨m.world.log records, frames, frame.resumption⟩ := by
  obtain ⟨world, stack, control⟩ := m
  cases stack with
  | nil =>
    right
    cases frame <;> exact ⟨_, rfl⟩
  | cons top stack =>
    left
    cases top <;> exact ⟨rfl, rfl⟩

/-- With more frames below, a step is the same as without, or it returns to the first of them. -/
theorem Watching.step_onTop (watching : m.Watching) (running : m.outcome? = none)
    (frame : Frame κ μ ν) (frames : List (Frame κ μ ν)) :
    ((m.step behave).outcome? = none ∧
        (m.onTop (frame :: frames)).step behave = (m.step behave).onTop (frame :: frames)) ∨
      ∃ records, (m.onTop (frame :: frames)).step behave =
        ⟨m.world.log records, frames, frame.resumption⟩ := by
  obtain ⟨⟨store, files, persistence, memory, trace⟩, stack, control⟩ := m
  cases control with
  | run script =>
    cases watching.control script rfl with
    | done => exact close_onTop _ none frame frames
    | fail fault => exact close_onTop _ (some fault) frame frames
    | @edit change _ rest =>
      left
      simp only [Machine.step, onTop, Machine.obey, Machine.edit]
      cases change files <;> exact ⟨rfl, rfl⟩
    | enable rest | disable rest =>
      left
      cases persistence with
      | none => exact ⟨rfl, rfl⟩
      | some p =>
        obtain ⟨file, writer⟩ := p
        cases writer <;> exact ⟨rfl, rfl⟩
    | _ => exact .inl ⟨rfl, rfl⟩
  | deliver snapshot waiting rest =>
    left
    cases waiting with
    | nil => exact ⟨rfl, rfl⟩
    | cons subscription waiting =>
      obtain ⟨handle, listener⟩ := subscription
      cases active : store.isActive handle with
      | false =>
        simp only [Machine.step, onTop, Machine.call, active]
        exact ⟨rfl, rfl⟩
      | true =>
        simp only [Machine.step, onTop, Machine.call, active]
        cases listener <;> exact ⟨rfl, rfl⟩
  | drain rest =>
    left
    simp only [Machine.step, onTop]
    cases store.pending <;> exact ⟨rfl, rfl⟩
  | ended outcome => cases running

/-! ## Hand-outs come to an end -/

/-- Every callback that is called on its own comes to an end, whatever the world is like. -/
def Returns (behave : κ → Settings → Script κ μ ν) : Prop :=
  ∀ c snapshot world, ∃ steps, ((start world (behave c snapshot)).run behave steps).outcome?.isSome

section Returns

variable (callbacks : ∀ c snapshot, (behave c snapshot).Watches)
include callbacks

/-- What comes to an end on its own returns to the frame below. -/
theorem comesTo_of_ends (watching : m.Watching) (running : m.outcome? = none) {steps : Nat}
    (ends : (m.run behave steps).outcome?.isSome) (frame : Frame κ μ ν) (frames : List (Frame κ μ ν)) :
    ∃ after : World κ μ ν, after.store.pending <:+ m.world.store.pending ∧
      (m.onTop (frame :: frames)).ComesTo behave ⟨after, frames, frame.resumption⟩ := by
  induction steps generalizing m with
  | zero =>
    rw [Machine.run, running] at ends
    cases ends
  | succ steps ih =>
    rw [run_succ] at ends
    have follows := watching.step callbacks
    rcases watching.step_onTop running frame frames with ⟨goesOn, same⟩ | ⟨records, returns⟩
    · obtain ⟨after, pending, comes⟩ := ih follows.watching goesOn ends
      refine ⟨after, pending.trans follows.pending, .step ?_⟩
      rw [same]
      exact comes
    · refine ⟨m.world.log records, List.suffix_refl _, .step ?_⟩
      rw [returns]
      exact .refl

variable (returns : Returns behave) {snapshot : Settings} {next : Script κ μ ν}
  {stack : List (Frame κ μ ν)}
include returns

/-- All that wait have their turn. -/
theorem comesTo_of_delivering (world : World κ μ ν) (waiting : List (Subscription κ)) :
    ∃ after : World κ μ ν, after.store.pending <:+ world.store.pending ∧
      ComesTo behave ⟨world, stack, .deliver snapshot waiting next⟩ ⟨after, stack, .drain next⟩ := by
  induction waiting generalizing world with
  | nil => exact ⟨world, List.suffix_refl _, .step .refl⟩
  | cons s rest ih =>
    obtain ⟨handle, listener⟩ := s
    let called : World κ μ ν := world.happen (.called handle listener snapshot)
    cases active : world.store.isActive handle with
    | false =>
      obtain ⟨after, pending, comes⟩ := ih world
      refine ⟨after, pending, .step ?_⟩
      simp only [Machine.step, Machine.call, active]
      exact comes
    | true =>
      cases listener with
      | callback c =>
        obtain ⟨steps, ends⟩ := returns c snapshot called
        obtain ⟨middle, kept, back⟩ := comesTo_of_ends callbacks (.start called (callbacks c snapshot))
          rfl ends (.fanOut handle snapshot rest next) stack
        obtain ⟨after, pending, comes⟩ := ih middle
        refine ⟨after, pending.trans kept, .step ?_⟩
        simp only [Machine.step, Machine.call, active, ↓reduceIte]
        exact back.trans comes
      | writer file =>
        let saved := called.save file snapshot
        obtain ⟨after, pending, comes⟩ :=
          ih (saved.1.log (saved.2.toList.map (failedRecord handle)))
        have same : saved.1.store = world.store := World.store_save ..
        refine ⟨after, ?_, .step ?_⟩
        · exact same ▸ pending
        · simp only [Machine.step, Machine.call, active, ↓reduceIte]
          exact comes

/-- All that is pending is handed out. -/
theorem comesTo_of_draining (world : World κ μ ν) :
    ∃ after : World κ μ ν, ComesTo behave ⟨world, stack, .drain next⟩ ⟨after, stack, .run next⟩ := by
  -- Nothing is added to what is pending, so each round has less to hand out.
  induction bound : world.store.pending.length using Nat.strongRecOn generalizing world with
  | ind count ih =>
    cases waits : world.store.pending with
    | nil => exact ⟨_, comesTo_of_drained waits⟩
    | cons snapshot pending =>
      obtain ⟨middle, kept, delivers⟩ := comesTo_of_delivering callbacks returns
        { world with store := { world.store with pending := pending } } world.store.subscriptions
      have fewer : middle.store.pending.length < count := by
        have most : middle.store.pending.length ≤ pending.length := kept.length_le
        rw [waits, List.length_cons] at bound
        omega
      obtain ⟨after, comes⟩ := ih _ fewer middle rfl
      refine ⟨after, .step ?_⟩
      rw [step_of_pending waits]
      exact delivers.trans comes

end Returns

end Machine

end TrainingCollar
