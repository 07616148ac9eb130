import TrainingCollar.Files.Path
import TrainingCollar.Store.Mutation

/-! # Stores

A store holds the configuration in force and those who want to hear of changes. A configuration that
has been put in force waits among the pending ones until it has been handed to every subscriber.
-/

namespace TrainingCollar

/-- Who is called about changes: a callback, or the writer that keeps a file up to date. -/
inductive Listener (κ : Type) where
  | callback (c : κ)
  | writer (file : Path)

/-- A listener and the handle under which it can be removed. -/
structure Subscription (κ : Type) where
  handle : Nat
  listener : Listener κ

/-- The state of a store. -/
structure Store (κ : Type) where
  /-- The configuration in force. -/
  live : Settings
  /-- The subscriptions in the order in which they were made. -/
  subscriptions : List (Subscription κ)
  nextHandle : Nat
  /-- The configurations that wait to be handed out, the oldest first. -/
  pending : List Settings
  /-- Whether pending configurations are being handed out. -/
  notifying : Bool

namespace Store

variable {κ : Type}

/-- The store with a first configuration. -/
def ofSettings (live : Settings) : Store κ := ⟨live, [], 1, [], false⟩

/-- The store that a value starts: a valid configuration, or the defaults if there is none. -/
def start (initial : Value) : Except Fault (Store κ) :=
  match initial with
  | .null => do
    Settings.defaults.validate
    return ofSettings Settings.defaults
  | .settings settings => do
    Settings.validate settings
    return ofSettings settings
  | _ => .error .noPart

/-- Whether a subscription is still registered. -/
def isActive (s : Store κ) (handle : Nat) : Bool := s.subscriptions.any (·.handle == handle)

/-- The store with one more subscription. -/
def register (s : Store κ) (listener : Listener κ) : Store κ :=
  { s with
    subscriptions := s.subscriptions ++ [⟨s.nextHandle, listener⟩]
    nextHandle := s.nextHandle + 1 }

/-- The store without a subscription. -/
def cancel (s : Store κ) (handle : Nat) : Store κ :=
  { s with subscriptions := s.subscriptions.filter (·.handle != handle) }

/-- The store with a configuration in force. -/
def hold (s : Store κ) (settings : Settings) : Store κ := { s with live := settings }

/-- The store whose configuration in force waits to be handed out. -/
def announce (s : Store κ) : Store κ := { s with pending := s.pending ++ [s.live] }

theorem isActive_iff {s : Store κ} {handle : Nat} :
    s.isActive handle = true ↔ ∃ subscription ∈ s.subscriptions, subscription.handle = handle := by
  simp [isActive]

theorem isActive_register (s : Store κ) (listener : Listener κ) (handle : Nat) :
    (s.register listener).isActive handle = (s.isActive handle || s.nextHandle == handle) := by
  simp [isActive, register]

theorem isActive_cancel (s : Store κ) (removed handle : Nat) :
    (s.cancel removed).isActive handle = (s.isActive handle && handle != removed) := by
  rw [Bool.eq_iff_iff, Bool.and_eq_true, isActive_iff, isActive_iff]
  simp only [cancel, List.mem_filter, bne_iff_ne, ne_eq]
  constructor
  · rintro ⟨subscription, ⟨member, kept⟩, rfl⟩
    exact ⟨⟨subscription, member, rfl⟩, kept⟩
  · rintro ⟨⟨subscription, member, rfl⟩, kept⟩
    exact ⟨subscription, ⟨member, kept⟩, rfl⟩

/-- The store once nothing is being handed out any more. -/
def rest (s : Store κ) : Store κ := { s with pending := [], notifying := false }

/-- How many subscriptions there are, in brackets. -/
def activeCount (s : Store κ) : String := "(" ++ toString s.subscriptions.length ++ " active)"

/-- The record of the subscription that was made last. -/
def addedRecord (s : Store κ) (handle : Nat) : Record :=
  ⟨.store, .debug, "Subscriber " ++ toString handle ++ " added " ++ s.activeCount⟩

/-- The record of a subscription that was removed. -/
def removedRecord (s : Store κ) (handle : Nat) : Record :=
  ⟨.store, .debug, "Subscriber " ++ toString handle ++ " removed " ++ s.activeCount⟩

end Store

/-- The record of a subscriber that failed. What it failed with is taken to have a wording: a caller's
exception that raises another one when it is written out would leave the hand-out at this point, and is
not among the faults. -/
def failedRecord (handle : Nat) (fault : Fault) : Record :=
  ⟨.store, .error, "Error in settings subscriber " ++ toString handle ++ ": " ++ fault.message⟩

end TrainingCollar
