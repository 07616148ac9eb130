import TrainingCollar.Store.Script

/-! # Runs

A run takes a script through its commands one small step at a time. A mutation that is accepted while
nothing is being handed out starts to drain the pending configurations, and goes on with its script
only when none is left; one that is accepted meanwhile only adds to them. Each pending configuration is
handed to the subscriptions that exist when its turn comes, in their order, except those that are
removed before theirs.

What waits for a callback to return is kept on a stack: the rest of a fan-out, or the script that made
a subscription, whose callback is called at once.
-/

namespace TrainingCollar

/-- The settings file that goes with a store. -/
structure Persistence where
  file : Path
  /-- The handle of the writer, while the file is kept up to date. -/
  writer : Option Nat

/-- What happens in a run. -/
inductive Event (κ ν : Type) where
  | logged (record : Record)
  /-- A listener is called and handed a configuration. -/
  | called (handle : Nat) (listener : Listener κ) (snapshot : Settings)
  | noted (text : ν)

/-- The state of everything that scripts act upon. -/
structure World (κ μ ν : Type) where
  store : Store κ
  files : FileTree
  persistence : Option Persistence
  memory : μ
  /-- What has happened so far. -/
  trace : List (Event κ ν)

/-- How a script ends. -/
inductive Outcome where
  | returned
  | failed (fault : Fault)
  | aborted

/-- What waits for a callback to return. -/
inductive Frame (κ μ ν : Type) where
  /-- The fan-out of a configuration to the subscriptions that have not had their turn, and the script
  to go on with when nothing is pending. -/
  | fanOut (handle : Nat) (snapshot : Settings) (waiting : List (Subscription κ))
      (next : Script κ μ ν)
  /-- The script that made the subscription with this handle. -/
  | subscribing (handle : Nat) (next : Script κ μ ν)

/-- What is to be done next. -/
inductive Control (κ μ ν : Type) where
  | run (script : Script κ μ ν)
  /-- Hand a configuration to the subscriptions that have not had their turn. -/
  | deliver (snapshot : Settings) (waiting : List (Subscription κ)) (next : Script κ μ ν)
  /-- Take the next pending configuration. -/
  | drain (next : Script κ μ ν)
  | ended (outcome : Outcome)

/-- A run at some point. -/
structure Machine (κ μ ν : Type) where
  world : World κ μ ν
  stack : List (Frame κ μ ν)
  control : Control κ μ ν

namespace World

variable {κ μ ν : Type}

/-- The world after something happened. -/
def happen (w : World κ μ ν) (event : Event κ ν) : World κ μ ν :=
  { w with trace := w.trace ++ [event] }

/-- The world after records were logged. -/
def log (w : World κ μ ν) (records : List Record) : World κ μ ν :=
  { w with trace := w.trace ++ records.map .logged }

/-- The world with one more subscription, which is called with the configuration in force. -/
def subscribe (w : World κ μ ν) (listener : Listener κ) : World κ μ ν :=
  let handle := w.store.nextHandle
  let store := w.store.register listener
  ({ w with store := store }.log [store.addedRecord handle]).happen
    (.called handle listener store.live)

/-- The world without a subscription. -/
def unsubscribe (w : World κ μ ν) (handle : Nat) : World κ μ ν :=
  if w.store.isActive handle then
    let store := w.store.cancel handle
    { w with store := store }.log [store.removedRecord handle]
  else w

/-- The world after a configuration was saved to a file, and the fault, if there was one. -/
def save (w : World κ μ ν) (file : Path) (settings : Settings) : World κ μ ν × Option Fault :=
  match settings.save w.files file with
  | (files, .ok record) => ({ w with files := files }.log [record], none)
  | (files, .error fault) => ({ w with files := files }, some fault)

end World

namespace Machine

variable {κ μ ν : Type}

/-- The run of a script. -/
def start (world : World κ μ ν) (script : Script κ μ ν) : Machine κ μ ν := ⟨world, [], .run script⟩

/-- The run that goes on with a script in a world. -/
def goOn (m : Machine κ μ ν) (world : World κ μ ν) (script : Script κ μ ν) : Machine κ μ ν :=
  { m with world := world, control := .run script }

/-- Goes on after an attempt to change the configuration. If it succeeded, the configuration in force
waits to be handed out, and is handed out unless something else is at the moment. -/
def settle (m : Machine κ μ ν) (attempt : Attempt) (next : Option Fault → Script κ μ ν) :
    Machine κ μ ν :=
  let world := { m.world with store := m.world.store.hold attempt.live }.log attempt.records
  match attempt.outcome with
  | .error fault => m.goOn world (next (some fault))
  | .ok () =>
    let store := world.store.announce
    if store.notifying then m.goOn { world with store := store } (next none)
    else
      { m with
        world := { world with store := { store with notifying := true } }
        control := .drain (next none) }

/-- Loads the settings file into the store, or writes it if it is missing. -/
def reload (m : Machine κ μ ν) (file : Path) (next : Option Fault → Script κ μ ν) :
    Machine κ μ ν :=
  match m.world.files.exists? file with
  | .error fault => m.goOn m.world (next (some fault))
  | .ok false =>
    let missing : Record := ⟨.persistence, .info,
      "No settings file at " ++ file.text ++ ", writing current settings"⟩
    let (world, fault) := (m.world.log [missing]).save file m.world.store.live
    m.goOn world (next fault)
  | .ok true =>
    let loaded := Settings.load m.world.files file
    let world := m.world.log loaded.records
    match loaded.outcome with
    | .error fault => m.goOn world (next (some fault))
    | .ok settings =>
      { m with world := world }.settle (world.store.live.attemptReplace (.settings settings)) next

/-- Starts to keep the settings file up to date, unless this is done already. -/
def enable (m : Machine κ μ ν) (p : Persistence) (next : Option Fault → Script κ μ ν) :
    Machine κ μ ν :=
  match p.writer with
  | some _ => m.goOn m.world (next none)
  | none =>
    let world := m.world.subscribe (.writer p.file)
    m.goOn { world with persistence := some { p with writer := some m.world.store.nextHandle } }
      (next none)

/-- Ceases to keep the settings file up to date. -/
def disable (m : Machine κ μ ν) (p : Persistence) (next : Option Fault → Script κ μ ν) :
    Machine κ μ ν :=
  match p.writer with
  | none => m.goOn m.world (next none)
  | some handle =>
    let world := m.world.unsubscribe handle
    m.goOn { world with persistence := some { p with writer := none } } (next none)

/-- A command for the settings file, of which there may be none. -/
def persist (m : Machine κ μ ν) (command : Persistence → (Option Fault → Script κ μ ν) → Machine κ μ ν)
    (next : Option Fault → Script κ μ ν) : Machine κ μ ν :=
  match m.world.persistence with
  | some p => command p next
  | none => m.goOn m.world (next (some .noPart))

/-- Changes files behind the store's back. -/
def edit (m : Machine κ μ ν) (change : FileTree → Except Fault FileTree)
    (next : Option Fault → Script κ μ ν) : Machine κ μ ν :=
  match change m.world.files with
  | .ok files => m.goOn { m.world with files := files } (next none)
  | .error fault => m.goOn m.world (next (some fault))

/-- The end of a callback, or of the whole script. A fault is logged if it ends a callback. -/
def close (m : Machine κ μ ν) (fault : Option Fault) : Machine κ μ ν :=
  let report (handle : Nat) : World κ μ ν := m.world.log (fault.toList.map (failedRecord handle))
  match m.stack with
  | [] => { m with control := .ended (match fault with | none => .returned | some f => .failed f) }
  | .fanOut handle snapshot waiting next :: stack =>
    ⟨report handle, stack, .deliver snapshot waiting next⟩
  | .subscribing handle next :: stack => ⟨report handle, stack, .run next⟩

/-- Whether a fan-out is waiting for a callback. -/
def isFanningOut (m : Machine κ μ ν) : Bool :=
  m.stack.any fun frame => match frame with
    | .fanOut .. => true
    | .subscribing .. => false

/-- Ends everything at once. A fan-out that is left this way drops what is pending. -/
def abort (m : Machine κ μ ν) : Machine κ μ ν :=
  { world := { m.world with store := if m.isFanningOut then m.world.store.rest else m.world.store }
    stack := []
    control := .ended .aborted }

/-- Hands a configuration to a subscription, if it still exists. -/
def call (behave : κ → Settings → Script κ μ ν) (m : Machine κ μ ν) (snapshot : Settings)
    (subscription : Subscription κ) (waiting : List (Subscription κ)) (next : Script κ μ ν) :
    Machine κ μ ν :=
  if m.world.store.isActive subscription.handle then
    let world := m.world.happen (.called subscription.handle subscription.listener snapshot)
    match subscription.listener with
    | .callback c =>
      ⟨world, .fanOut subscription.handle snapshot waiting next :: m.stack, .run (behave c snapshot)⟩
    | .writer file =>
      let (world, fault) := world.save file snapshot
      ⟨world.log (fault.toList.map (failedRecord subscription.handle)), m.stack,
        .deliver snapshot waiting next⟩
  else { m with control := .deliver snapshot waiting next }

/-- Takes one command of a script. -/
def obey (behave : κ → Settings → Script κ μ ν) (m : Machine κ μ ν) :
    Script κ μ ν → Machine κ μ ν
  | .done => m.close none
  | .fail fault => m.close (some fault)
  | .abort => m.abort
  | .mutate mutation next => m.settle (mutation.attempt m.world.store.live) next
  | .subscribe callback next =>
    let handle := m.world.store.nextHandle
    ⟨m.world.subscribe (.callback callback), .subscribing handle (next handle) :: m.stack,
      .run (behave callback m.world.store.live)⟩
  | .unsubscribe handle next => m.goOn (m.world.unsubscribe handle) next
  | .look next => m.goOn m.world (next m.world.store.live)
  | .reload next => m.persist (fun p => m.reload p.file) next
  | .enable next => m.persist m.enable next
  | .disable next => m.persist m.disable next
  | .edit change next => m.edit change next
  | .recall next => m.goOn m.world (next m.world.memory)
  | .remember memory next => m.goOn { m.world with memory := memory } next
  | .note text next => m.goOn (m.world.happen (.noted text)) next

/-- One step of a run. Nothing follows its end. -/
def step (behave : κ → Settings → Script κ μ ν) (m : Machine κ μ ν) : Machine κ μ ν :=
  match m.control with
  | .run script => m.obey behave script
  | .deliver _ [] next => { m with control := .drain next }
  | .deliver snapshot (subscription :: waiting) next => m.call behave snapshot subscription waiting next
  | .drain next =>
    match m.world.store.pending with
    | [] => m.goOn { m.world with store := m.world.store.rest } next
    | snapshot :: pending =>
      { m with
        world := { m.world with store := { m.world.store with pending := pending } }
        control := .deliver snapshot m.world.store.subscriptions next }
  | .ended _ => m

/-- How the run has ended, if it has. -/
def outcome? (m : Machine κ μ ν) : Option Outcome :=
  match m.control with
  | .ended outcome => some outcome
  | _ => none

/-- The run after at most so many steps. -/
def run (behave : κ → Settings → Script κ μ ν) : Nat → Machine κ μ ν → Machine κ μ ν
  | 0, m => m
  | steps + 1, m => if m.outcome?.isSome then m else run behave steps (m.step behave)

end Machine

end TrainingCollar
