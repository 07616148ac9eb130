import Mathlib.Algebra.Group.Int.Defs
import TrainingCollar.Proofs.Coercion
import TrainingCollar.Proofs.Store.Advance
import TrainingCollar.Proofs.Strength

/-! # What every reachable machine guarantees

A machine is reachable if it arises from a store that was started with some configuration, by steps
of scripts that were run one after the other. Two invariants of deliveries hold of all of them. Every
configuration is guarded: the one in force, those that wait, and those that are being handed out. And a
delivery is *orderly*: there is one hand-out or none, as the store's flag says, nothing waits while there
is none, and handles increase along every list of subscriptions.
-/

namespace TrainingCollar

variable {κ μ ν : Type}

/-- The configuration that is being handed out has a property. -/
def Turn.All (holds : Settings → Prop) : Turn κ → Prop
  | .next => True
  | .of snapshot _ => holds snapshot

/-- Subscriptions in the order in which they were made, all of them before a handle. -/
def InOrder (bound : Nat) (subscriptions : List (Subscription κ)) : Prop :=
  subscriptions.Pairwise (·.handle < ·.handle) ∧ ∀ s ∈ subscriptions, s.handle < bound

/-- Those who wait for their turn are in order. -/
def Turn.InOrder (bound : Nat) : Turn κ → Prop
  | .next => True
  | .of _ waiting => TrainingCollar.InOrder bound waiting

namespace InOrder

variable {bound : Nat} {subscriptions : List (Subscription κ)}

theorem nil (bound : Nat) : InOrder bound ([] : List (Subscription κ)) := ⟨.nil, by simp⟩

theorem sublist {fewer : List (Subscription κ)} (order : InOrder bound subscriptions)
    (sub : fewer.Sublist subscriptions) : InOrder bound fewer :=
  ⟨order.1.sublist sub, fun s member => order.2 s (sub.subset member)⟩

theorem mono {more : Nat} (order : InOrder bound subscriptions) (le : bound ≤ more) :
    InOrder more subscriptions :=
  ⟨order.1, fun s member => Nat.lt_of_lt_of_le (order.2 s member) le⟩

/-- A new subscription comes last. -/
theorem snoc (order : InOrder bound subscriptions) (listener : Listener κ) :
    InOrder (bound + 1) (subscriptions ++ [⟨bound, listener⟩]) := by
  constructor
  · refine List.pairwise_append.mpr ⟨order.1, List.pairwise_singleton .., ?_⟩
    intro s member last isLast
    obtain rfl := List.mem_singleton.mp isLast
    exact order.2 s member
  · refine List.forall_mem_append.mpr ⟨(order.mono (Nat.le_succ bound)).2, ?_⟩
    exact List.forall_mem_singleton.mpr (Nat.lt_succ_self bound)

end InOrder

theorem Turn.InOrder.mono {bound more : Nat} {turn : Turn κ} (order : turn.InOrder bound)
    (le : bound ≤ more) : turn.InOrder more := by
  cases turn with
  | next => trivial
  | of => exact TrainingCollar.InOrder.mono order le

namespace Delivery

variable {d next : Delivery κ} {happening : Option (Happening κ)} {holds : Settings → Prop}

/-- Every configuration has a property. -/
structure All (holds : Settings → Prop) (d : Delivery κ) : Prop where
  live : holds d.store.live
  pending : ∀ settings ∈ d.store.pending, holds settings
  turns : ∀ turn ∈ d.turns, turn.All holds

/-- One hand-out at most, and every list of subscriptions in order. -/
structure Orderly (d : Delivery κ) : Prop where
  single : d.turns.length = d.store.notifying.toNat
  idle : d.store.notifying = false → d.store.pending = []
  subscriptions : InOrder d.store.nextHandle d.store.subscriptions
  turns : ∀ turn ∈ d.turns, turn.InOrder d.store.nextHandle

/-- A step hands on no configuration that was not there before, apart from the one that it puts in
force. -/
theorem All.step (all : d.All holds) (step : Step d happening next)
    (new : ∀ settings, happening.bind Happening.changed? = some settings → holds settings) :
    next.All holds := by
  obtain ⟨live, pending, turns⟩ := all
  cases step with
  | quiet | subscribed | unsubscribed => exact ⟨live, pending, turns⟩
  | queued =>
    have settings := new _ rfl
    refine ⟨settings, ?_, turns⟩
    exact List.forall_mem_append.mpr ⟨pending, List.forall_mem_singleton.mpr settings⟩
  | opened =>
    have settings := new _ rfl
    refine ⟨settings, ?_, List.forall_mem_cons.mpr ⟨trivial, turns⟩⟩
    exact List.forall_mem_append.mpr ⟨pending, List.forall_mem_singleton.mpr settings⟩
  | slipped => exact ⟨new _ rfl, pending, turns⟩
  | begun waits =>
    rw [waits] at pending
    obtain ⟨first, later⟩ := List.forall_mem_cons.mp pending
    exact ⟨live, later, List.forall_mem_cons.mpr ⟨first, (List.forall_mem_cons.mp turns).2⟩⟩
  | handed | skipped =>
    obtain ⟨current, others⟩ := List.forall_mem_cons.mp turns
    exact ⟨live, pending, List.forall_mem_cons.mpr ⟨current, others⟩⟩
  | finished =>
    exact ⟨live, pending, List.forall_mem_cons.mpr ⟨trivial, (List.forall_mem_cons.mp turns).2⟩⟩
  | rested => exact ⟨live, List.forall_mem_nil _, (List.forall_mem_cons.mp turns).2⟩
  | aborted =>
    split
    · exact ⟨live, pending, List.forall_mem_nil _⟩
    · exact ⟨live, List.forall_mem_nil _, List.forall_mem_nil _⟩

/-- Whoever is called is handed a configuration that was there. -/
theorem All.call (all : d.All holds) (step : Step d happening next) {call : Call κ}
    (called : happening.bind Happening.call? = some call) : holds call.snapshot := by
  cases step with
  | subscribed =>
    obtain rfl := Option.some.inj called
    exact all.live
  | handed =>
    obtain rfl := Option.some.inj called
    exact all.turns _ (List.mem_cons_self ..)
  | _ => cases called

/-- What a step puts in force or leaves behind is guarded, if what was there before is. -/
theorem All.guarded_changed (all : d.All Settings.Guarded) (step : Step d happening next) {settings : Settings}
    (changes : happening.bind Happening.changed? = some settings) : settings.Guarded := by
  cases step with
  | queued guarded | opened guarded =>
    obtain rfl := Option.some.inj changes
    exact guarded
  | slipped slip =>
    obtain rfl := Option.some.inj changes
    exact slip.guarded all.live
  | _ => cases changes

/-- While a hand-out is in progress it is the only one. -/
theorem Orderly.tail_eq_nil {store : Store κ} {turn : Turn κ} {turns : List (Turn κ)}
    (orderly : Orderly ⟨store, turn :: turns⟩) : turns = [] := by
  have single : turns.length + 1 = store.notifying.toNat := orderly.single
  have atMostOne := Bool.toNat_le store.notifying
  apply List.eq_nil_of_length_eq_zero
  omega

/-- While the store is not notifying no hand-out is in progress. -/
theorem Orderly.turns_eq_nil (orderly : d.Orderly) (idle : d.store.notifying = false) :
    d.turns = [] := by
  have single := orderly.single
  rw [idle] at single
  exact List.eq_nil_of_length_eq_zero single

theorem Orderly.step (orderly : d.Orderly) (step : Step d happening next) : next.Orderly := by
  have ⟨single, idle, subscriptions, turns⟩ := orderly
  cases step with
  | quiet | slipped => exact ⟨single, idle, subscriptions, turns⟩
  | queued guarded busy =>
    exact ⟨single, fun rest => Bool.noConfusion (busy.symm.trans rest), subscriptions, turns⟩
  | opened guarded free =>
    obtain rfl := orderly.turns_eq_nil free
    exact ⟨rfl, nofun, subscriptions, List.forall_mem_singleton.mpr trivial⟩
  | subscribed store others listener =>
    refine ⟨single, idle, subscriptions.snoc listener, ?_⟩
    intro turn member
    exact (turns turn member).mono (Nat.le_succ _)
  | unsubscribed active =>
    exact ⟨single, idle, subscriptions.sublist List.filter_sublist, turns⟩
  | begun waits =>
    refine ⟨single, ?_, subscriptions, ?_⟩
    · intro rest
      cases orderly.turns_eq_nil rest
    · exact List.forall_mem_cons.mpr ⟨subscriptions, (List.forall_mem_cons.mp turns).2⟩
  | handed | skipped =>
    obtain ⟨current, others⟩ := List.forall_mem_cons.mp turns
    refine ⟨single, idle, subscriptions, List.forall_mem_cons.mpr ⟨?_, others⟩⟩
    exact InOrder.sublist current (List.sublist_cons_self ..)
  | finished =>
    refine ⟨single, idle, subscriptions, ?_⟩
    exact List.forall_mem_cons.mpr ⟨trivial, (List.forall_mem_cons.mp turns).2⟩
  | rested empty =>
    refine ⟨?_, fun _ => rfl, subscriptions, (List.forall_mem_cons.mp turns).2⟩
    exact congrArg List.length orderly.tail_eq_nil
  | aborted =>
    split
    · next empty =>
      obtain rfl := List.isEmpty_iff.mp empty
      exact ⟨single, idle, subscriptions, turns⟩
    · exact ⟨rfl, fun _ => rfl, subscriptions, List.forall_mem_nil _⟩

end Delivery

/-- A store is started with a valid configuration and nothing else. -/
theorem Store.start_eq_ok {initial : Value} {store : Store κ}
    (started : Store.start initial = .ok store) :
    ∃ settings : Settings, settings.Valid ∧ store = .ofSettings settings := by
  unfold Store.start at started
  split at started
  · simp only [↓check_eq_ok_iff, pure_eq_ok_iff] at started
    exact ⟨_, started.1, started.2.symm⟩
  · simp only [↓check_eq_ok_iff, pure_eq_ok_iff] at started
    exact ⟨_, started.1, started.2.symm⟩
  · cases started

/-- Without a configuration a store is started with the defaults. -/
theorem Store.start_null : Store.start .null = .ok (.ofSettings .defaults : Store κ) := by
  simp only [Store.start, ↓check_eq_ok_iff, pure_eq_ok_iff]
  exact ⟨Settings.defaults_valid, trivial⟩

namespace Machine

variable {behave : κ → Settings → Script κ μ ν} {m : Machine κ μ ν}

/-- A machine that arises from a store that was started with some value, by steps of one script
after the other. -/
inductive Reachable (behave : κ → Settings → Script κ μ ν) : Machine κ μ ν → Prop
  | first {initial : Value} {store : Store κ} (started : Store.start initial = .ok store)
      (files : FileTree) (file : Option Path) (memory : μ) (script : Script κ μ ν) :
      Reachable behave (.start ⟨store, files, file.map (⟨·, none⟩), memory, [.logged .passed]⟩ script)
  | next {m : Machine κ μ ν} (reachable : Reachable behave m) (ended : m.outcome?.isSome)
      (script : Script κ μ ν) : Reachable behave (.start m.world script)
  | step {m : Machine κ μ ν} (reachable : Reachable behave m) : Reachable behave (m.step behave)

theorem Reachable.run (reachable : m.Reachable behave) (steps : Nat) :
    (m.run behave steps).Reachable behave := by
  induction steps generalizing m with
  | zero => exact reachable
  | succ steps ih =>
    unfold Machine.run
    split
    · exact reachable
    · exact ih reachable.step

/-- Every configuration that is in the store, or that a listener was handed, has a property. -/
structure All (holds : Settings → Prop) (m : Machine κ μ ν) : Prop where
  delivery : m.delivery.All holds
  calls : ∀ call ∈ m.world.calls, holds call.snapshot

theorem All.step {holds : Settings → Prop} {next : Machine κ μ ν} (all : m.All holds)
    (advance : Advance m m.happening? next)
    (new : ∀ settings, m.happening?.bind Happening.changed? = some settings → holds settings) :
    next.All holds := by
  refine ⟨all.delivery.step advance.delivery new, ?_⟩
  rw [advance.calls]
  refine List.forall_mem_append.mpr ⟨all.calls, fun call made => ?_⟩
  exact all.delivery.call advance.delivery (Option.mem_toList.mp made)

/-- When a script is started no hand-out is in progress any more. -/
theorem All.start {holds : Settings → Prop} (all : m.All holds) (script : Script κ μ ν) :
    (start m.world script).All holds :=
  ⟨⟨all.delivery.live, all.delivery.pending, List.forall_mem_nil _⟩, all.calls⟩

/-- A store that is started hands out nothing but the configuration that it was given. -/
theorem All.first {holds : Settings → Prop} {settings : Settings} (given : holds settings)
    (files : FileTree) (persistence : Option Persistence) (memory : μ) (script : Script κ μ ν) :
    All holds (.start ⟨.ofSettings settings, files, persistence, memory, [.logged .passed]⟩ script) :=
  ⟨⟨given, List.forall_mem_nil _, List.forall_mem_nil _⟩, List.forall_mem_nil _⟩

/-- What holds of every reachable machine. -/
structure Coherent (m : Machine κ μ ν) : Prop where
  guarded : m.All Settings.Guarded
  orderly : m.delivery.Orderly
  emptied : ∀ outcome, m.control = .ended outcome → m.stack = []

/-- The configuration in force is guarded. -/
theorem Coherent.live (coherent : m.Coherent) : m.world.store.live.Guarded :=
  coherent.guarded.delivery.live

theorem Coherent.advance (coherent : m.Coherent) (behave : κ → Settings → Script κ μ ν) :
    Advance m m.happening? (m.step behave) :=
  step_advance coherent.live coherent.emptied

theorem Coherent.step (coherent : m.Coherent) : (m.step behave).Coherent := by
  have advance := coherent.advance behave
  refine ⟨coherent.guarded.step advance ?_, coherent.orderly.step advance.delivery, advance.emptied⟩
  intro settings changes
  exact coherent.guarded.delivery.guarded_changed advance.delivery changes

/-- The run of a script in a world that is at rest. -/
theorem Coherent.start (coherent : m.Coherent) (idle : m.world.store.notifying = false)
    (script : Script κ μ ν) : (start m.world script).Coherent := by
  obtain ⟨guarded, orderly, _⟩ := coherent
  refine ⟨guarded.start script,
    ⟨?_, orderly.idle, orderly.subscriptions, List.forall_mem_nil _⟩, nofun⟩
  exact (congrArg Bool.toNat idle).symm

/-- A run that has ended leaves no hand-out behind. -/
theorem Coherent.idle_of_ended (coherent : m.Coherent) (ended : m.outcome?.isSome) :
    m.world.store.notifying = false := by
  cases control : m.control with
  | ended outcome =>
    have turns : m.turns = [] := by rw [turns, control, coherent.emptied outcome control]; rfl
    have single : m.turns.length = m.world.store.notifying.toNat := coherent.orderly.single
    rw [turns] at single
    exact Bool.toNat_eq_zero.mp single.symm
  | _ => simp [outcome?, control] at ended

theorem Reachable.coherent (reachable : m.Reachable behave) : m.Coherent := by
  induction reachable with
  | first started files file memory script =>
    obtain ⟨settings, valid, rfl⟩ := Store.start_eq_ok started
    exact ⟨.first valid.guarded files _ memory script,
      ⟨rfl, fun _ => rfl, .nil _, List.forall_mem_nil _⟩, nofun⟩
  | next _ ended script coherent => exact coherent.start (coherent.idle_of_ended ended) script
  | step _ coherent => exact coherent.step

end Machine

/-! A short run: an eager callback answers one configuration with a removal that fails, two
replacements and a subscription of a quiet callback. -/

/-- The callbacks of the run. -/
inductive Hearer where
  | eager
  | quiet

/-- The defaults with another gain step of the microphone. -/
def Settings.ofMicrophone (level : Int) : Settings :=
  { Settings.defaults with microphone := .int level }

/-- The gain step of the microphone, if it is an integer. -/
def Settings.microphone? (s : Settings) : Option Int :=
  match s.microphone with
  | .int level => some level
  | _ => none

namespace Hearer

/-- What the callbacks do. -/
def behave : Hearer → Settings → Script Hearer Unit Unit
  | eager, snapshot =>
    if Settings.microphone? snapshot = some 28 then
      .mutate (.remove (.text "correction_steps") (.int 0)) fun _ =>
      .mutate (.replace (.settings (Settings.ofMicrophone 29))) fun _ =>
      .mutate (.replace (.settings (Settings.ofMicrophone 26))) fun _ =>
      .subscribe .quiet fun _ => .done
    else .done
  | quiet, _ => .done

/-- The eager callback has subscribed to a new store. -/
def opened : Machine Hearer Unit Unit :=
  Machine.run behave 4 (.start ⟨.ofSettings .defaults, .empty [], none, (), [.logged .passed]⟩
    (.subscribe .eager fun _ => .done))

/-- The replacement that the eager callback answers. -/
def request : Script Hearer Unit Unit :=
  .mutate (.replace (.settings (Settings.ofMicrophone 28))) fun _ => .done

/-- The run of the replacement after so many steps. -/
def session (steps : Nat) : Machine Hearer Unit Unit :=
  Machine.run behave steps (.start opened.world request)

theorem opened_reachable : opened.Reachable behave :=
  (Machine.Reachable.first Store.start_null _ none () _).run 4

theorem session_reachable (steps : Nat) : (session steps).Reachable behave :=
  (opened_reachable.next (by decide +kernel) request).run steps

end Hearer

namespace Machine

variable {behave : κ → Settings → Script κ μ ν} {m : Machine κ μ ν}

/-- Whether the next step is a mutation that fails. -/
def rejects (m : Machine κ μ ν) : Bool :=
  match m.control with
  | .run (.mutate mutation _) => !(mutation.attempt m.world.store.live).outcome.isOk
  | _ => false

theorem rejects_iff : m.rejects = true ↔ ∃ mutation answer fault,
    m.control = .run (.mutate mutation answer) ∧
      (mutation.attempt m.world.store.live).outcome = .error fault := by
  unfold rejects
  split
  · next mutation answer calling =>
    cases result : (mutation.attempt m.world.store.live).outcome with
    | error fault => exact ⟨fun _ => ⟨mutation, answer, fault, calling, result⟩, fun _ => rfl⟩
    | ok =>
      refine ⟨nofun, ?_⟩
      rintro ⟨other, _, fault, same, rejected⟩
      cases calling.symm.trans same
      cases result.symm.trans rejected
  · next other =>
    refine ⟨nofun, fun ⟨mutation, answer, _, calling, _⟩ => (other mutation answer calling).elim⟩

end Machine

namespace Hearer

/-- A beep that lasts too long to be written out. -/
def endless : Step where
  kind := .choice (.stimulus .beep)
  startDelay := .int 0
  endDelay := .int 0
  timeMode := .choice (.resolution .fixed)
  time := .tuple [.int (10 ^ 4300)]
  strengthMode := .choice (.resolution .fixed)
  strength := .tuple [.int 0]

/-- The quiet callback subscribes to a new store, the endless beep is added, and a look is taken. -/
def stretching : Machine Hearer Unit Unit :=
  .start ⟨.ofSettings .defaults, .empty [], none, (), [.logged .passed]⟩
    (.subscribe .quiet fun _ =>
      .mutate (.add (.text "correction_steps") (.step endless)) fun _ => .look fun _ => .done)

/-- The run of this after so many steps. -/
def stretched (steps : Nat) : Machine Hearer Unit Unit := stretching.run behave steps

theorem stretched_reachable (steps : Nat) : (stretched steps).Reachable behave :=
  (Machine.Reachable.first Store.start_null _ none () _).run steps

end Hearer

namespace Machine

end Machine

end TrainingCollar
