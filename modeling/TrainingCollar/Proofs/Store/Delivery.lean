import TrainingCollar.Proofs.Store.Attempt
import TrainingCollar.Store.Machine

/-! # Deliveries

A run is seen here from those who hear of changes. What is left of a machine is its store and the
hand-outs in progress, and what is left of a step is whether a configuration was put in force, a
subscription was made, removed or served, or everything was aborted. `Delivery.Step` lists all that
one step can do to this view, whatever the callbacks are. That every step of a run does one of these
things is proved once; what holds of all deliveries is then proved from the list alone.

A configuration is accepted when it is put in force. This is the moment that fixes the order in
which subscribers have to hear of it; its hand-out begins later. One that an edit leaves behind that has
slipped is in force as well, but it is not accepted, and no hand-out follows.
-/

namespace TrainingCollar

/-- A listener that is handed a configuration. -/
structure Call (κ : Type) where
  subscription : Subscription κ
  snapshot : Settings

/-- What one step does for those who hear of changes. -/
inductive Happening (κ : Type) where
  /-- A configuration is put in force. -/
  | accepted (settings : Settings)
  /-- A mutation has slipped and leaves a configuration that nobody is told of. -/
  | slipped (settings : Settings)
  /-- A subscription is made, and its listener called at once. -/
  | subscribed (call : Call κ)
  /-- A subscription that existed is removed. -/
  | unsubscribed (handle : Nat)
  /-- The hand-out of a pending configuration begins. -/
  | begun (snapshot : Settings)
  /-- The hand-out calls a subscription. -/
  | handed (call : Call κ)
  | aborted

/-- How far a hand-out has come. -/
inductive Turn (κ : Type) where
  /-- The next pending configuration is to be taken. -/
  | next
  /-- A configuration is to be handed to those who still wait for it. -/
  | of (snapshot : Settings) (waiting : List (Subscription κ))

/-- A store and the hand-outs in progress, the innermost first. -/
structure Delivery (κ : Type) where
  store : Store κ
  turns : List (Turn κ)

/-- All that one step can do to a delivery. -/
inductive Delivery.Step {κ : Type} : Delivery κ → Option (Happening κ) → Delivery κ → Prop
  | quiet (d : Delivery κ) : Step d none d
  | queued {store : Store κ} {turns : List (Turn κ)} {settings : Settings} :
      settings.Guarded → store.notifying = true →
      Step ⟨store, turns⟩ (some (.accepted settings)) ⟨(store.hold settings).announce, turns⟩
  | opened {store : Store κ} {turns : List (Turn κ)} {settings : Settings} :
      settings.Guarded → store.notifying = false →
      Step ⟨store, turns⟩ (some (.accepted settings))
        ⟨{ (store.hold settings).announce with notifying := true }, .next :: turns⟩
  | slipped {store : Store κ} {turns : List (Turn κ)} {mutation : Mutation} {settings : Settings} :
      Slip store.live mutation settings →
      Step ⟨store, turns⟩ (some (.slipped settings)) ⟨store.hold settings, turns⟩
  | subscribed (store : Store κ) (turns : List (Turn κ)) (listener : Listener κ) :
      Step ⟨store, turns⟩ (some (.subscribed ⟨⟨store.nextHandle, listener⟩, store.live⟩))
        ⟨store.register listener, turns⟩
  | unsubscribed {store : Store κ} {turns : List (Turn κ)} {handle : Nat} :
      store.isActive handle = true →
      Step ⟨store, turns⟩ (some (.unsubscribed handle)) ⟨store.cancel handle, turns⟩
  | begun {store : Store κ} {turns : List (Turn κ)} {snapshot : Settings} {pending : List Settings} :
      store.pending = snapshot :: pending →
      Step ⟨store, .next :: turns⟩ (some (.begun snapshot))
        ⟨{ store with pending := pending }, .of snapshot store.subscriptions :: turns⟩
  | handed {store : Store κ} {turns : List (Turn κ)} {snapshot : Settings}
      {subscription : Subscription κ} {waiting : List (Subscription κ)} :
      store.isActive subscription.handle = true →
      Step ⟨store, .of snapshot (subscription :: waiting) :: turns⟩
        (some (.handed ⟨subscription, snapshot⟩)) ⟨store, .of snapshot waiting :: turns⟩
  | skipped {store : Store κ} {turns : List (Turn κ)} {snapshot : Settings}
      {subscription : Subscription κ} {waiting : List (Subscription κ)} :
      store.isActive subscription.handle = false →
      Step ⟨store, .of snapshot (subscription :: waiting) :: turns⟩ none
        ⟨store, .of snapshot waiting :: turns⟩
  | finished (store : Store κ) (turns : List (Turn κ)) (snapshot : Settings) :
      Step ⟨store, .of snapshot [] :: turns⟩ none ⟨store, .next :: turns⟩
  | rested {store : Store κ} {turns : List (Turn κ)} :
      store.pending = [] → Step ⟨store, .next :: turns⟩ none ⟨store.rest, turns⟩
  | aborted (store : Store κ) (turns : List (Turn κ)) :
      Step ⟨store, turns⟩ (some .aborted) ⟨if turns.isEmpty then store else store.rest, []⟩

variable {κ μ ν : Type}

/-- The configuration that was put in force, if one was. -/
@[simp] def Happening.accepted? : Happening κ → Option Settings
  | .accepted settings => some settings
  | _ => none

/-- The configuration that is in force from then on, if another one was before. -/
@[simp] def Happening.changed? : Happening κ → Option Settings
  | .accepted settings | .slipped settings => some settings
  | _ => none

/-- The configuration whose hand-out begins, if one does. -/
@[simp] def Happening.begun? : Happening κ → Option Settings
  | .begun snapshot => some snapshot
  | _ => none

/-- The call that a hand-out made, if it made one. -/
@[simp] def Happening.handed? : Happening κ → Option (Call κ)
  | .handed call => some call
  | _ => none

/-- The call that was made, on subscribing or in a hand-out. -/
@[simp] def Happening.call? : Happening κ → Option (Call κ)
  | .subscribed call | .handed call => some call
  | _ => none

/-- The call that an event is. -/
def Event.call? : Event κ ν → Option (Call κ)
  | .called handle listener snapshot => some ⟨⟨handle, listener⟩, snapshot⟩
  | _ => none

/-- Whether a sequence has another number of steps than it had. After a failure this tells a slip. -/
def Attempt.recounts (live : Settings) (a : Attempt) : Bool :=
  Sequence.all.any fun which => a.live.stepCount which != live.stepCount which

/-- What the attempt to change a configuration puts in force, or leaves behind. -/
def Attempt.happening? (live : Settings) (a : Attempt) : Option (Happening κ) :=
  match a.outcome with
  | .ok () => some (.accepted a.live)
  | .error _ => if a.recounts live then some (.slipped a.live) else none

/-- An attempt that fails and changes nothing amounts to nothing, -/
theorem Attempt.happening?_of_kept {live : Settings} {a : Attempt} {fault : Fault}
    (failed : a.outcome = .error fault) (kept : a.live = live) :
    (a.happening? live : Option (Happening κ)) = none := by
  have same : a.recounts live = false := by simp [recounts, kept]
  rw [happening?, failed, same]
  rfl

/-- and one that slips to what it leaves behind. -/
theorem Attempt.happening?_of_slip {live : Settings} {a : Attempt} {mutation : Mutation} {fault : Fault}
    (failed : a.outcome = .error fault) (slip : Slip live mutation a.live) :
    (a.happening? live : Option (Happening κ)) = some (.slipped a.live) := by
  obtain ⟨which, differs⟩ := slip.length_ne
  have counted : a.recounts live = true :=
    List.any_eq_true.mpr ⟨which, Sequence.mem_all which, bne_iff_ne.mpr differs⟩
  rw [happening?, failed, counted]
  rfl

namespace World

variable (w : World κ μ ν)

/-- All calls so far. -/
def calls : List (Call κ) := w.trace.filterMap Event.call?

/-- What removing a subscription amounts to. -/
def removal? (handle : Nat) : Option (Happening κ) :=
  if w.store.isActive handle then some (.unsubscribed handle) else none

/-- What loading a settings file amounts to. -/
def reloading? (file : Path) : Option (Happening κ) :=
  match w.files.exists? file, (Settings.load w.files file).outcome with
  | .ok true, .ok settings =>
    (w.store.live.attemptReplace (.settings settings)).happening? w.store.live
  | _, _ => none

/-- What starting to keep a file up to date amounts to. -/
def enabling? (p : Persistence) : Option (Happening κ) :=
  match p.writer with
  | some _ => none
  | none => some (.subscribed ⟨⟨w.store.nextHandle, .writer p.file⟩, w.store.live⟩)

/-- What ceasing to keep a file up to date amounts to. -/
def disabling? (p : Persistence) : Option (Happening κ) := p.writer.bind w.removal?

/-- What the next command of a script amounts to. -/
def happening? : Script κ μ ν → Option (Happening κ)
  | .mutate mutation _ => (mutation.attempt w.store.live).happening? w.store.live
  | .subscribe callback _ =>
    some (.subscribed ⟨⟨w.store.nextHandle, .callback callback⟩, w.store.live⟩)
  | .unsubscribe handle _ => w.removal? handle
  | .reload _ => w.persistence.bind fun p => w.reloading? p.file
  | .enable _ => w.persistence.bind w.enabling?
  | .disable _ => w.persistence.bind w.disabling?
  | .abort => some .aborted
  | _ => none

@[simp] theorem store_save (file : Path) (settings : Settings) :
    (w.save file settings).1.store = w.store := by
  unfold save
  split <;> rfl

@[simp] theorem calls_log (records : List Record) : (w.log records).calls = w.calls := by
  simp [calls, log, List.filterMap_append, List.filterMap_map, Function.comp_def, Event.call?]

@[simp] theorem calls_called (handle : Nat) (listener : Listener κ) (snapshot : Settings) :
    (w.happen (.called handle listener snapshot)).calls =
      w.calls ++ [⟨⟨handle, listener⟩, snapshot⟩] := by
  simp [calls, happen, Event.call?]

@[simp] theorem calls_noted (text : ν) : (w.happen (.noted text)).calls = w.calls := by
  simp [calls, happen, Event.call?]

@[simp] theorem calls_subscribe (listener : Listener κ) : (w.subscribe listener).calls =
    w.calls ++ [⟨⟨w.store.nextHandle, listener⟩, w.store.live⟩] := by
  simp only [subscribe, calls_called, calls_log]
  rfl

@[simp] theorem calls_save (file : Path) (settings : Settings) :
    (w.save file settings).1.calls = w.calls := by
  unfold save
  split
  · exact calls_log _ _
  · rfl

@[simp] theorem calls_unsubscribe (handle : Nat) : (w.unsubscribe handle).calls = w.calls := by
  unfold unsubscribe
  split
  · exact calls_log _ _
  · rfl

/-- Removing a subscription is quiet unless it exists. -/
theorem unsubscribe_step (handle : Nat) (turns : List (Turn κ)) :
    Delivery.Step ⟨w.store, turns⟩ (w.removal? handle) ⟨(w.unsubscribe handle).store, turns⟩ := by
  unfold unsubscribe removal?
  split
  · next active => exact .unsubscribed active
  · exact .quiet _

/-- Only a script that aborts amounts to an abort. -/
theorem eq_abort_of_happening? {script : Script κ μ ν}
    (aborts : w.happening? script = some .aborted) : script = .abort := by
  have attempts (live : Settings) (a : Attempt) :
      (a.happening? live : Option (Happening κ)) ≠ some .aborted := by
    unfold Attempt.happening?
    split
    · nofun
    · split <;> nofun
  have removes (handle : Nat) : w.removal? handle ≠ some .aborted := by
    unfold removal?
    split <;> nofun
  cases script with
  | abort => rfl
  | mutate mutation answer => exact absurd aborts (attempts _ _)
  | unsubscribe handle rest => exact absurd aborts (removes handle)
  | reload answer =>
    obtain ⟨p, _, reloads⟩ := Option.bind_eq_some_iff.mp aborts
    unfold reloading? at reloads
    split at reloads
    · exact absurd reloads (attempts _ _)
    · cases reloads
  | enable answer =>
    obtain ⟨p, _, enables⟩ := Option.bind_eq_some_iff.mp aborts
    unfold enabling? at enables
    split at enables <;> cases enables
  | disable answer =>
    obtain ⟨p, _, disables⟩ := Option.bind_eq_some_iff.mp aborts
    obtain ⟨handle, _, removed⟩ := Option.bind_eq_some_iff.mp disables
    exact absurd removed (removes handle)
  | _ => cases aborts

end World

end TrainingCollar
