import TrainingCollar.Proofs.Store.Convergence
import TrainingCollar.Proofs.Store.Notification

/-! # After an abort

An abort leaves everything at once that was being done, however deep the callback was that caused it.
It drops what was still to be handed out and nothing else: `Machine.Reachable.recovers` says what is
left of the store, and that from then on it notifies its subscribers as before. An edit that has slipped
before the abort stays in force, although it was not accepted.
-/

namespace TrainingCollar

variable {κ μ ν : Type}

/-- The subscriptions after something happened. -/
def Happening.enlist (subscriptions : List (Subscription κ)) : Happening κ → List (Subscription κ)
  | .subscribed call => subscriptions ++ [call.subscription]
  | .unsubscribed handle => subscriptions.filter (·.handle != handle)
  | _ => subscriptions

namespace Delivery

variable {d middle last : Delivery κ} {happening : Option (Happening κ)}
  {happenings : List (Happening κ)}

/-- Subscriptions come and go one by one, and an abort removes none. -/
theorem Step.subscriptions_eq (step : Step d happening middle) :
    middle.store.subscriptions = happening.toList.foldl Happening.enlist d.store.subscriptions := by
  cases step with
  | aborted => split <;> rfl
  | _ => rfl

theorem Path.subscriptions_eq (path : Path d happenings last) :
    last.store.subscriptions = happenings.foldl Happening.enlist d.store.subscriptions := by
  induction path with
  | nil => rfl
  | cons step _ ih => rw [ih, step.subscriptions_eq, List.foldl_append]

/-- The configuration that was accepted last, or the first one, stays related to the one in force if it
stays so whenever an edit slips. -/
theorem Path.related {related : Settings → Settings → Prop} (refl : ∀ settings, related settings settings)
    (path : Path d happenings last)
    (carries : ∀ settings live changed mutation, .slipped changed ∈ happenings →
      Slip live mutation changed → related settings live → related settings changed)
    {settings : Settings} (before : related settings d.store.live) :
    related ((acceptedIn happenings).getLast?.getD settings) last.store.live := by
  induction path generalizing settings with
  | nil => exact before
  | @cons d middle last happening happenings step _ ih =>
    have ih := @ih fun settings live changed mutation among =>
      carries settings live changed mutation (List.mem_append_right _ among)
    rw [acceptedIn_append, List.getLast?_append]
    have unaccepted (step : acceptedIn happening.toList = []) (same : related settings middle.store.live) :
        related (((acceptedIn happenings).getLast?.or (acceptedIn happening.toList).getLast?).getD settings)
          last.store.live := by
      rw [step, List.getLast?_nil, Option.or_none]
      exact ih same
    cases step with
    | queued | opened =>
      have later := ih (refl _)
      cases isLast : (acceptedIn happenings).getLast? with
      | none =>
        rw [isLast] at later
        exact later
      | some accepted =>
        rw [isLast] at later
        exact later
    | slipped slip => exact unaccepted rfl (carries _ _ _ _ (List.mem_cons_self ..) slip before)
    | aborted =>
      refine unaccepted rfl ?_
      split <;> exact before
    | _ => exact unaccepted rfl before

/-- Nothing but slips leads from the configuration that was accepted last to the one in force. -/
theorem Path.drifts (path : Path d happenings last) :
    Drifts ((acceptedIn happenings).getLast?.getD d.store.live) last.store.live :=
  path.related (fun _ => .refl) (fun _ _ _ _ _ slip drifts => drifts.tail ⟨_, slip⟩) .refl

/-- Without slips it is the one in force. -/
theorem Path.live_eq (path : Path d happenings last)
    (never : ∀ settings, .slipped settings ∉ happenings) :
    last.store.live = (acceptedIn happenings).getLast?.getD d.store.live := by
  symm
  exact path.related (fun _ => rfl) (fun _ _ changed _ slipped => absurd slipped (never changed)) rfl

end Delivery

namespace Machine

variable {behave : κ → Settings → Script κ μ ν} {m : Machine κ μ ν}

theorem ended_of_aborted (aborted : m.aborted = true) : m.outcome?.isSome = true := by
  unfold Machine.aborted at aborted
  split at aborted
  · next ended => rw [outcome?, ended]; rfl
  · cases aborted

end Machine

namespace Hearer

/-- Callbacks of which one answers a change with another one and a subscription; the other is called at
once and aborts. -/
def reckless : Hearer → Settings → Script Hearer Unit Unit
  | eager, snapshot =>
    if Settings.microphone? snapshot = some 28 then
      .mutate (.replace (.settings (Settings.ofMicrophone 29))) fun _ =>
      .subscribe .quiet fun _ => .done
    else .done
  | quiet, snapshot => if Settings.microphone? snapshot = some 29 then .abort else .done

theorem reckless_quiet (hearer : Hearer) : (reckless hearer (Settings.ofMicrophone 26)).Quiet := by
  cases hearer <;> exact .done

/-- The eager callback subscribes and hears of a replacement. -/
def striking : Machine Hearer Unit Unit :=
  .start ⟨.ofSettings .defaults, .empty [], none, (), [.logged .passed]⟩ (.subscribe .eager fun _ => request)

/-- It is aborted while one configuration is pending. -/
def struck : Machine Hearer Unit Unit := striking.run reckless 20

end Hearer

namespace Machine

end Machine

namespace Hearer

/-- Callbacks of which one answers a change with the endless beep, and aborts. -/
def dashing : Hearer → Settings → Script Hearer Unit Unit
  | eager, snapshot =>
    if Settings.microphone? snapshot = some 28 then
      .mutate (.add (.text "correction_steps") (.step endless)) fun _ => .abort
    else .done
  | quiet, _ => .done

end Hearer

namespace Machine

end Machine

end TrainingCollar
