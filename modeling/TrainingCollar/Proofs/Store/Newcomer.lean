import TrainingCollar.Proofs.Store.FanOut

/-! # Subscriptions made during a hand-out

A subscription is called at once with the configuration in force, which may be ahead of the
hand-out: what was accepted before but not yet taken is still pending, and the subscription is among
those who will be handed it. So it hears of the present first and then of what led there. It hears
nothing but what is accepted from then on exactly if nothing was pending.
-/

namespace TrainingCollar

variable {κ μ ν : Type}

namespace Delivery

variable {d middle last : Delivery κ} {happening : Option (Happening κ)}
  {happenings : List (Happening κ)} {handle : Nat}

/-- A subscription has the next handle and is handed the configuration in force. -/
theorem Step.subscribed_eq {call : Call κ} (step : Step d (some (.subscribed call)) middle) :
    call = ⟨⟨d.store.nextHandle, call.subscription.listener⟩, d.store.live⟩ ∧
      middle = ⟨d.store.register call.subscription.listener, d.turns⟩ := by
  cases step
  exact ⟨rfl, rfl⟩

theorem Orderly.heardBy_upcoming (orderly : d.Orderly) :
    heardBy d.store.nextHandle d.upcoming = [] :=
  heardBy_eq_nil fun _ comes => Nat.ne_of_lt (orderly.lt_of_upcoming comes)

/-- Once it is made, a subscription is only called by hand-outs. -/
theorem Step.heardBy_calls (step : Step d happening middle) (old : handle < d.store.nextHandle) :
    heardBy handle (happening.bind Happening.call?).toList =
      heardBy handle (handedIn happening.toList) := by
  cases step with
  | subscribed => exact heardBy_cons_of_ne (Nat.ne_of_gt old) ..
  | _ => rfl

theorem Path.heardBy_callsIn (path : Path d happenings last) (old : handle < d.store.nextHandle) :
    heardBy handle (callsIn happenings) = heardBy handle (handedIn happenings) := by
  induction path with
  | nil => rfl
  | @cons d middle last happening happenings step rest ih =>
    have stillOld := Nat.lt_of_lt_of_le old step.nextHandle_le
    have now : heardBy handle (callsIn happening.toList) =
        heardBy handle (handedIn happening.toList) := by
      rw [← step.heardBy_calls old]
      cases happening <;> rfl
    rw [callsIn_append, handedIn_append, heardBy_append, heardBy_append, now, ih stillOld]

/-- What a subscription hears, from the step that makes it on. -/
theorem Orderly.newcomer {call : Call κ} (orderly : d.Orderly)
    (step : Step d (some (.subscribed call)) middle) (path : Path middle happenings last)
    (unaborted : .aborted ∉ happenings) :
    call.snapshot :: heardBy call.subscription.handle (callsIn happenings) <+:
        d.store.live :: (d.store.pending ++ acceptedIn happenings) ∧
      (last.store.isActive call.subscription.handle = true → last.store.notifying = false →
        call.snapshot :: heardBy call.subscription.handle (callsIn happenings) =
          d.store.live :: (d.store.pending ++ acceptedIn happenings)) := by
  have next := orderly.step step
  have after := next.path path
  obtain ⟨isCall, rfl⟩ := step.subscribed_eq
  rw [isCall]
  have active : (d.store.register call.subscription.listener).isActive d.store.nextHandle = true := by
    simp [Store.isActive_register]
  have old : d.store.nextHandle < (d.store.register call.subscription.listener).nextHandle :=
    Nat.lt_succ_self _
  have owed : owed ⟨d.store.register call.subscription.listener, d.turns⟩ d.store.nextHandle =
      d.store.pending := congrArg (· ++ d.store.pending) orderly.heardBy_upcoming
  dsimp only
  rw [path.heardBy_callsIn old]
  constructor
  · have heard := path.heard_prefix next old unaborted
    rw [owed] at heard
    exact List.cons_prefix_cons.mpr ⟨rfl, heard⟩
  · intro kept atRest
    have ledger := path.heard_append_owed next active kept unaborted
    rw [owed, after.owed_of_idle atRest, List.append_nil] at ledger
    rw [ledger]

end Delivery

namespace Machine

variable {behave : κ → Settings → Script κ μ ν} {m : Machine κ μ ν} {call : Call κ}

theorem Reachable.handle_of_subscribing (reachable : m.Reachable behave)
    (subscribing : m.happening? = some (.subscribed call)) :
    call.subscription.handle = m.world.store.nextHandle := by
  have step := (reachable.coherent.advance behave).delivery
  rw [subscribing] at step
  rw [step.subscribed_eq.1]
  rfl

/-- Whether the next step makes a subscription. -/
def subscribes (m : Machine κ μ ν) : Bool :=
  match m.happening? with
  | some (.subscribed _) => true
  | _ => false

theorem exists_of_subscribes (subscribes : m.subscribes = true) :
    ∃ call, m.happening? = some (.subscribed call) := by
  unfold Machine.subscribes at subscribes
  split at subscribes
  · next call isCall => exact ⟨call, isCall⟩
  · cases subscribes

end Machine

end TrainingCollar
