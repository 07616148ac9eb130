import TrainingCollar.SettingsFile
import TrainingCollar.Store.Basic

/-! # Scripts

A script is what a caller does with a store, command by command, where each command may depend on the
answers so far. Callbacks are given by names of type `κ`, and what a callback does when it is handed a
configuration is a script again. Callers may keep a memory of type `μ` between calls and leave notes of
type `ν` in the trace of a run.
-/

namespace TrainingCollar

/-- What a caller does. -/
inductive Script (κ μ ν : Type) where
  | done
  /-- Ends with a fault, as ordinary errors do. -/
  | fail (fault : Fault)
  /-- Ends in a way that the store does not catch. -/
  | abort
  /-- Changes the configuration; the answer is the fault, if there is one. -/
  | mutate (mutation : Mutation) (next : Option Fault → Script κ μ ν)
  /-- Subscribes a callback; the answer is its handle. -/
  | subscribe (callback : κ) (next : Nat → Script κ μ ν)
  | unsubscribe (handle : Nat) (next : Script κ μ ν)
  /-- Asks for the configuration in force. -/
  | look (next : Settings → Script κ μ ν)
  /-- Loads the settings file into the store, or writes it if it is missing. -/
  | reload (next : Option Fault → Script κ μ ν)
  /-- Starts to keep the settings file up to date. -/
  | enable (next : Option Fault → Script κ μ ν)
  /-- Ceases to keep the settings file up to date. -/
  | disable (next : Option Fault → Script κ μ ν)
  /-- Changes files behind the store's back. -/
  | edit (change : FileTree → Except Fault FileTree) (next : Option Fault → Script κ μ ν)
  | recall (next : μ → Script κ μ ν)
  | remember (memory : μ) (next : Script κ μ ν)
  | note (text : ν) (next : Script κ μ ν)

end TrainingCollar
