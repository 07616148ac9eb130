import TrainingCollar.Proofs.Store.Convergence

/-! # Unsubscribing

A hand-out runs through the subscriptions that existed when it began, while its callbacks make others
and remove some. One that is removed is passed over from then on, and no other: whoever is subscribed
from the beginning of a hand-out to its end is called once and in turn. A handle is used for one
subscription only, so removing it again does nothing, whenever that is.
-/

namespace TrainingCollar

variable {κ μ ν : Type}

/-- Removing a subscription that does not exist changes nothing. -/
theorem Store.cancel_of_gone {s : Store κ} {handle : Nat} (gone : s.isActive handle = false) :
    s.cancel handle = s := by
  have kept : s.subscriptions.filter (·.handle != handle) = s.subscriptions := by
    refine List.filter_eq_self.mpr fun subscription member => bne_iff_ne.mpr ?_
    rintro rfl
    exact Bool.noConfusion (gone.symm.trans (isActive_iff.mpr ⟨subscription, member, rfl⟩))
  rw [cancel, kept]

theorem World.unsubscribe_of_gone {w : World κ μ ν} {handle : Nat}
    (gone : w.store.isActive handle = false) : w.unsubscribe handle = w := by
  rw [unsubscribe, gone]
  rfl

theorem World.store_unsubscribe (w : World κ μ ν) (handle : Nat) :
    (w.unsubscribe handle).store = w.store.cancel handle := by
  cases active : w.store.isActive handle with
  | false => rw [unsubscribe_of_gone active, Store.cancel_of_gone active]
  | true =>
    rw [unsubscribe, active]
    rfl

namespace Delivery

variable {d middle last : Delivery κ} {happening : Option (Happening κ)}
  {happenings : List (Happening κ)} {snapshot : Settings}

/-- When a hand-out begins, its calls are those of all subscriptions. -/
theorem Orderly.upcoming_begun (orderly : d.Orderly) (step : Step d (some (.begun snapshot)) middle) :
    middle.upcoming = d.store.subscriptions.map (⟨·, snapshot⟩) ∧
      middle.store.nextHandle = d.store.nextHandle := by
  cases step with
  | begun =>
    obtain rfl := orderly.tail_eq_nil
    exact ⟨List.append_nil _, rfl⟩

/-- Until the next hand-out begins, a step makes the call that comes first, or passes over one to a
subscription that was removed, or leaves the calls to come alone. -/
theorem Step.upcoming_eq (step : Step d happening middle) (alone : begunIn happening.toList = [])
    (unaborted : happening ≠ some .aborted) :
    d.upcoming = handedIn happening.toList ++ middle.upcoming ∨
      ∃ call, d.upcoming = call :: middle.upcoming ∧ handedIn happening.toList = [] ∧
        d.store.isActive call.subscription.handle = false := by
  cases step with
  | begun => cases alone
  | skipped gone => exact .inr ⟨_, rfl, rfl, gone⟩
  | aborted => exact absurd rfl unaborted
  | _ => exact .inl rfl

/-- Until the next hand-out begins, calls are made in the order in which they were to come, and none is
passed over but those to subscriptions that are removed. -/
theorem Path.serves (path : Path d happenings last) (orderly : d.Orderly)
    (alone : begunIn happenings = []) (unaborted : .aborted ∉ happenings) :
    (handedIn happenings ++ last.upcoming).Sublist d.upcoming ∧
      ∀ call ∈ d.upcoming, last.store.isActive call.subscription.handle = true →
        call ∈ handedIn happenings ++ last.upcoming := by
  induction path with
  | nil => exact ⟨.refl _, fun call comes _ => comes⟩
  | @cons d middle last happening happenings step rest ih =>
    obtain ⟨now, later⟩ := unaborted_cons unaborted
    rw [begunIn_append] at alone
    obtain ⟨first, others⟩ := List.append_eq_nil_iff.mp alone
    obtain ⟨sub, complete⟩ := ih (orderly.step step) others later
    rw [handedIn_append, List.append_assoc]
    obtain same | ⟨skipped, same, silent, gone⟩ := step.upcoming_eq first now
    · rw [same]
      refine ⟨sub.append_left _, fun call comes kept => ?_⟩
      rcases List.mem_append.mp comes with made | stillComes
      · exact List.mem_append_left _ made
      · exact List.mem_append_right _ (complete call stillComes kept)
    · rw [same, silent, List.nil_append]
      refine ⟨sub.cons _, fun call comes kept => ?_⟩
      rcases List.mem_cons.mp comes with rfl | stillComes
      · have old := orderly.lt_of_upcoming (same ▸ List.mem_cons_self ..)
        have lost := ((Path.cons step rest).gone old gone).1
        exact Bool.noConfusion (kept.symm.trans lost)
      · exact complete call stillComes kept

end Delivery

namespace Machine

variable {behave : κ → Settings → Script κ μ ν} {m later : Machine κ μ ν} {handle : Nat}

/-- The subscription that the next step is to remove. -/
def unsubscribing? (m : Machine κ μ ν) : Option Nat :=
  match m.control with
  | .run (.unsubscribe handle _) => some handle
  | .run (.disable _) => m.world.persistence.bind Persistence.writer
  | _ => none

/-- Whoever removes a subscription, the store loses it and no other, and the hand-outs in progress stay
as they are. -/
theorem delivery_of_unsubscribing (removes : m.unsubscribing? = some handle) :
    (m.step behave).delivery = ⟨m.world.store.cancel handle, m.turns⟩ ∧
      (m.step behave).world.calls = m.world.calls := by
  have goesOn {world : World κ μ ν} {script : Script κ μ ν} (running : m.control.turn? = none)
      (store : world.store = (m.world.unsubscribe handle).store) :
      (m.goOn world script).delivery = ⟨m.world.store.cancel handle, m.turns⟩ := by
    rw [turns_of_turn?_eq_none running, ← World.store_unsubscribe, ← store]
    rfl
  unfold unsubscribing? at removes
  split at removes
  · next removed next asks =>
    obtain rfl := Option.some.inj removes
    simp only [step, asks, obey]
    exact ⟨goesOn (by rw [asks]; rfl) rfl, World.calls_unsubscribe ..⟩
  · next answer asks =>
    obtain ⟨p, isKept, isWriter⟩ := Option.bind_eq_some_iff.mp removes
    simp only [step, asks, obey, persist, isKept, disable, isWriter]
    exact ⟨goesOn (by rw [asks]; rfl) rfl, World.calls_unsubscribe ..⟩
  · cases removes

/-- A handle that was in use and is no more. -/
structure Retired (handle : Nat) (m : Machine κ μ ν) : Prop where
  old : handle < m.world.store.nextHandle
  gone : m.world.store.isActive handle = false

theorem retired_of_unsubscribing (removes : m.unsubscribing? = some handle)
    (old : handle < m.world.store.nextHandle) : Retired handle (m.step behave) := by
  have store : (m.step behave).world.store = m.world.store.cancel handle :=
    congrArg Delivery.store (delivery_of_unsubscribing removes).1
  constructor
  · rw [store]
    exact old
  · rw [store, Store.isActive_cancel, bne_self_eq_false, Bool.and_false]

/-- A handle stays retired and is not called. -/
theorem Retired.step (retired : Retired handle m) (coherent : m.Coherent) :
    Retired handle (m.step behave) ∧
      heardBy handle (m.step behave).world.calls = heardBy handle m.world.calls := by
  have advance := coherent.advance behave
  obtain ⟨old, gone, silent⟩ := advance.delivery.gone retired.old retired.gone
  refine ⟨⟨old, gone⟩, ?_⟩
  rw [advance.calls, heardBy_append, advance.delivery.heardBy_calls retired.old, silent,
    List.append_nil]

theorem Retired.course {allowed : Machine κ μ ν → Prop} (retired : Retired handle m)
    (reachable : m.Reachable behave) (course : Course behave allowed m later) :
    Retired handle later ∧ heardBy handle later.world.calls = heardBy handle m.world.calls := by
  induction course with
  | refl => exact ⟨retired, rfl⟩
  | step course _ ih =>
    obtain ⟨stays, silent⟩ := ih.1.step (course.reachable reachable).coherent
    exact ⟨stays, silent.trans ih.2⟩
  | next _ _ _ ih => exact ⟨⟨ih.1.old, ih.1.gone⟩, ih.2⟩

theorem exists_of_begins (begins : (m.happening?.bind Happening.begun?).isSome = true) :
    ∃ snapshot, m.happening? = some (.begun snapshot) := by
  obtain ⟨snapshot, isBegun⟩ := Option.isSome_iff_exists.mp begins
  obtain ⟨happening, happens, same⟩ := Option.bind_eq_some_iff.mp isBegun
  cases happening with
  | begun => exact ⟨_, happens⟩
  | _ => cases same

/-- The hand-out of a configuration begins with the next step and has come to its end so many steps
after that. The next hand-out has not begun by then, and nothing was aborted. -/
structure HandsOut (behave : κ → Settings → Script κ μ ν) (m : Machine κ μ ν) (snapshot : Settings)
    (steps : Nat) : Prop where
  begins : m.happening? = some (.begun snapshot)
  alone : begunIn ((m.step behave).history behave steps) = []
  unaborted : ((m.step behave).run behave steps).aborted = false
  served : ((m.step behave).run behave steps).delivery.upcoming = []

/-- A hand-out calls subscriptions that existed when it began, each at most once and in their order, and
among them all that exist when it has come to its end. -/
theorem HandsOut.serves {snapshot : Settings} {steps : Nat} (handsOut : m.HandsOut behave snapshot steps)
    (coherent : m.Coherent) : ∃ called : List (Subscription κ),
      handedIn (m.history behave (steps + 1)) = called.map (⟨·, snapshot⟩) ∧
        called.Sublist m.world.store.subscriptions ∧
          ∀ s ∈ m.world.store.subscriptions,
            (m.run behave (steps + 1)).world.store.isActive s.handle = true → s ∈ called ∧
              heardBy s.handle (callsIn (m.history behave (steps + 1))) = [snapshot] := by
  obtain ⟨begins, alone, unaborted, served⟩ := handsOut
  have step := (coherent.advance behave).delivery
  have path := (coherent.step : (m.step behave).Coherent).path behave steps
  rw [begins] at step
  obtain ⟨upcoming, sameHandle⟩ := coherent.orderly.upcoming_begun step
  obtain ⟨sub, complete⟩ := path.serves (coherent.orderly.step step) alone fun abort =>
    Bool.noConfusion (unaborted.symm.trans (aborted_of_mem_history behave abort))
  rw [served, List.append_nil] at sub complete
  rw [upcoming] at sub complete
  obtain ⟨called, among, isCalled⟩ := List.sublist_map_iff.mp sub
  have history : m.history behave (steps + 1) =
      .begun snapshot :: (m.step behave).history behave steps := by
    rw [Machine.history, begins]
    rfl
  rw [run_succ, history]
  refine ⟨called, isCalled, among, fun s member kept => ?_⟩
  have order : InOrder m.world.store.nextHandle m.world.store.subscriptions :=
    coherent.orderly.subscriptions
  have made := complete _ (List.mem_map_of_mem member) kept
  rw [isCalled] at made
  obtain ⟨same, isServed, isCall⟩ := List.mem_map.mp made
  obtain rfl : same = s := congrArg Call.subscription isCall
  have old : same.handle < (m.step behave).delivery.store.nextHandle := by
    rw [sameHandle]
    exact order.2 same member
  refine ⟨isServed, ?_⟩
  calc heardBy same.handle (callsIn ((m.step behave).history behave steps))
    _ = heardBy same.handle (called.map (⟨·, snapshot⟩)) := by
      rw [path.heardBy_callsIn old, isCalled]
    _ = [snapshot] := (order.sublist among).heardBy isServed snapshot

end Machine

namespace Hearer

/-- Callbacks of which one answers a change with another one and removes a subscription, twice. -/
def leaving : Hearer → Settings → Script Hearer Unit Unit
  | eager, snapshot =>
    if Settings.microphone? snapshot = some 28 then
      .mutate (.replace (.settings (Settings.ofMicrophone 29))) fun _ =>
      .unsubscribe 2 (.unsubscribe 2 .done)
    else .done
  | quiet, _ => .done

/-- The eager callback has subscribed, and twice the quiet one, when a replacement is made. -/
def crowded (steps : Nat) : Machine Hearer Unit Unit :=
  Machine.run leaving steps (.start ⟨.ofSettings .defaults, .empty [], none, (), [.logged .passed]⟩
    (.subscribe .eager fun _ => .subscribe .quiet fun _ => .subscribe .quiet fun _ => request))

theorem crowded_reachable (steps : Nat) : (crowded steps).Reachable leaving :=
  (Machine.Reachable.first Store.start_null _ none () _).run steps

end Hearer

namespace Machine

end Machine

end TrainingCollar
