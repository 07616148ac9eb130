import TrainingCollar.Proofs.Store.Course

/-! # Convergence

What a subscription hears last is the configuration in force, as soon as nothing is owed to it any
more. The invariant behind this says the same of every moment: what a subscription has heard,
followed by what it is owed, ends with the configuration in force. Subscribing keeps it, although
the call on subscribing is ahead of what is pending, because what is pending ends with the
configuration in force as well.

An edit that slips changes the configuration in force and tells nobody. What is heard last is then
one from which slips lead to the configuration in force, until the next one is accepted. The invariant
is stated for any relation between the two, so that a step may weaken or restore it.
-/

namespace TrainingCollar

variable {κ μ ν : Type}

namespace Delivery

variable {d middle : Delivery κ} {happening : Option (Happening κ)} {handle : Nat}
  {before after : Settings → Settings → Prop}

/-- What waits last is related to what is in force. -/
def Current (related : Settings → Settings → Prop) (d : Delivery κ) : Prop :=
  ∀ settings, d.store.pending.getLast? = some settings → related settings d.store.live

/-- Only accepting a configuration and slips change the one in force. -/
theorem Step.live_eq (step : Step d happening middle) :
    middle.store.live = (happening.bind Happening.changed?).getD d.store.live := by
  cases step with
  | aborted => split <;> rfl
  | _ => rfl

/-- Where nothing is accepted the configuration in force is the same, or a slip leads to it. -/
theorem Step.drifts (step : Step d happening middle)
    (unaccepted : happening.bind Happening.accepted? = none) :
    Drifts d.store.live middle.store.live := by
  cases step with
  | slipped slip => exact .single ⟨_, slip⟩
  | queued | opened => cases unaccepted
  | aborted => split <;> exact .refl
  | _ => exact .refl

theorem Current.step (current : d.Current before) (step : Step d happening middle)
    (refl : ∀ settings, after settings settings)
    (carries : happening.bind Happening.accepted? = none →
      ∀ settings, before settings d.store.live → after settings middle.store.live) :
    middle.Current after := by
  intro settings last
  cases step with
  | quiet | subscribed | unsubscribed | handed | skipped | finished | slipped =>
    exact carries rfl settings (current settings last)
  | queued | opened =>
    simp only [Store.announce, Store.hold, List.getLast?_append, List.getLast?_singleton,
      Option.some_or, Option.some.injEq] at last
    exact last ▸ refl _
  | @begun store turns snapshot pending waits =>
    have last : pending.getLast? = some settings := last
    apply carries rfl settings
    apply current settings
    change store.pending.getLast? = some settings
    rw [waits, List.getLast?_cons, last, Option.getD_some]
  | rested => cases last
  | aborted =>
    split at last
    · next empty =>
      apply carries rfl settings
      exact current settings last
    · cases last

/-- A subscription is there after a step because it was there before or because it is new. -/
theorem Step.isActive_before (step : Step d happening middle)
    (active : middle.store.isActive handle = true) :
    d.store.isActive handle = true ∨
      handle = d.store.nextHandle ∧ ∃ call, happening = some (.subscribed call) := by
  cases step with
  | subscribed =>
    rw [Store.isActive_register, Bool.or_eq_true, beq_iff_eq] at active
    rcases active with before | new
    · exact .inl before
    · exact .inr ⟨new.symm, _, rfl⟩
  | unsubscribed =>
    rw [Store.isActive_cancel, Bool.and_eq_true] at active
    exact .inl active.1
  | aborted =>
    split at active
    · exact .inl active
    · exact .inl active
  | _ => exact .inl active

/-- What a subscription hears and is owed goes on with what is accepted. -/
theorem Orderly.account_step (orderly : d.Orderly) (step : Step d happening middle)
    (active : d.store.isActive handle = true) (unaborted : happening ≠ some .aborted) :
    heardBy handle (happening.bind Happening.call?).toList ++ middle.owed handle =
      d.owed handle ++ (happening.bind Happening.accepted?).toList := by
  rw [step.heardBy_calls (orderly.lt_nextHandle active), orderly.owed_step step active unaborted]
  cases happening with
  | none => rfl
  | some happening => cases happening <;> rfl

end Delivery

namespace Machine

variable {behave : κ → Settings → Script κ μ ν} {first m : Machine κ μ ν}

variable {before after : Settings → Settings → Prop}

/-- What waits last is related to what is in force, and so is the last of what any subscription has heard
or is owed. -/
structure Converging (related : Settings → Settings → Prop) (m : Machine κ μ ν) : Prop where
  current : m.delivery.Current related
  account : ∀ handle, m.world.store.isActive handle = true → ∃ last,
    (heardBy handle m.world.calls ++ m.delivery.owed handle).getLast? = some last ∧
      related last m.world.store.live

/-- A step changes the configuration in force only by what happens in it. -/
theorem Coherent.live_step (coherent : m.Coherent) (behave : κ → Settings → Script κ μ ν) :
    (m.step behave).world.store.live =
      (m.happening?.bind Happening.changed?).getD m.world.store.live :=
  (coherent.advance behave).delivery.live_eq

/-- What is accepted is in force. -/
theorem Coherent.live_of_accepted (coherent : m.Coherent) (behave : κ → Settings → Script κ μ ν)
    {settings : Settings} (accepted : m.happening?.bind Happening.accepted? = some settings) :
    (m.step behave).world.store.live = settings := by
  rw [coherent.live_step]
  obtain ⟨happening, happens, isAccepted⟩ := Option.bind_eq_some_iff.mp accepted
  rw [happens]
  cases happening with
  | accepted => exact Option.some.inj isAccepted
  | _ => cases isAccepted

/-- A subscription that was made has heard the configuration in force, and is owed what is pending. -/
theorem Coherent.account_of_subscribed (coherent : m.Coherent)
    (behave : κ → Settings → Script κ μ ν) {call : Call κ}
    (subscribing : m.happening? = some (.subscribed call)) :
    heardBy m.world.store.nextHandle [call] ++ (m.step behave).delivery.owed m.world.store.nextHandle =
      m.world.store.live :: m.world.store.pending := by
  have delivery := (coherent.advance behave).delivery
  rw [subscribing] at delivery
  obtain ⟨isCall, next⟩ := delivery.subscribed_eq
  have owed : (m.step behave).delivery.owed m.world.store.nextHandle = m.world.store.pending := by
    rw [next]
    exact congrArg (· ++ m.world.store.pending) coherent.orderly.heardBy_upcoming
  have heard : heardBy m.world.store.nextHandle [call] = [m.world.store.live] := by
    rw [isCall]
    exact heardBy_cons_self ..
  rw [heard, owed, List.singleton_append]

theorem Converging.step (converging : m.Converging before) (coherent : m.Coherent)
    (goesOn : m.aborts = false) (refl : ∀ settings, after settings settings)
    (carries : m.happening?.bind Happening.accepted? = none → ∀ settings,
      before settings m.world.store.live → after settings (m.step behave).world.store.live) :
    (m.step behave).Converging after := by
  have advance := coherent.advance behave
  have unaborted := happening?_ne_aborted goesOn
  refine ⟨converging.current.step advance.delivery refl carries, ?_⟩
  intro handle active
  rw [advance.calls, heardBy_append, List.append_assoc]
  rcases advance.delivery.isActive_before active with before | ⟨new, call, subscribing⟩
  · obtain ⟨last, isLast, related⟩ := converging.account handle before
    rw [coherent.orderly.account_step advance.delivery before unaborted, ← List.append_assoc,
      List.getLast?_append, isLast]
    cases accepted : m.happening?.bind Happening.accepted? with
    | none => exact ⟨last, rfl, carries accepted last related⟩
    | some settings => exact ⟨settings, rfl, coherent.live_of_accepted behave accepted ▸ refl settings⟩
  · obtain rfl : handle = m.world.store.nextHandle := new
    have live : (m.step behave).world.store.live = m.world.store.live := by
      rw [coherent.live_step, subscribing]
      rfl
    have account := coherent.account_of_subscribed behave subscribing
    rw [subscribing] at carries ⊢
    change ∃ last, (_ ++ (heardBy m.world.store.nextHandle [call] ++ _)).getLast? = some last ∧ _
    rw [account, live, List.getLast?_append, List.getLast?_cons]
    cases last : m.world.store.pending.getLast? with
    | none => exact ⟨_, rfl, refl _⟩
    | some settings => exact ⟨settings, rfl, live ▸ carries rfl settings (converging.current settings last)⟩

theorem Converging.next (converging : m.Converging before) (coherent : m.Coherent)
    (idle : m.world.store.notifying = false) (script : Script κ μ ν) :
    (start m.world script).Converging before := by
  refine ⟨converging.current, ?_⟩
  intro handle active
  have past : m.delivery.owed handle = [] := coherent.orderly.owed_of_idle idle
  have future : (start m.world script).delivery.owed handle = [] :=
    (coherent.start idle script).orderly.owed_of_idle idle
  have account := converging.account handle active
  rw [past] at account
  rw [future]
  exact account

theorem Fresh.converging {initial : Value} (fresh : first.Fresh initial)
    (related : Settings → Settings → Prop) : first.Converging related := by
  obtain ⟨started, files, file, memory, script⟩ := fresh
  obtain ⟨settings, _, rfl⟩ := Store.start_eq_ok started
  exact ⟨nofun, nofun⟩

/-- At rest nothing is owed, and what was heard last is related to what is in force. -/
theorem Converging.heard_of_idle (converging : m.Converging before) (coherent : m.Coherent)
    (idle : m.world.store.notifying = false) {s : Subscription κ}
    (member : s ∈ m.world.store.subscriptions) : ∃ last,
      (heardBy s.handle m.world.calls).getLast? = some last ∧ before last m.world.store.live := by
  have account := converging.account s.handle (Store.isActive_iff.mpr ⟨s, member, rfl⟩)
  rwa [coherent.orderly.owed_of_idle idle, List.append_nil] at account

/-- Without aborts what is heard last drifts at most. -/
theorem Course.drifting (course : Course behave (·.aborts = false) first m)
    (reachable : first.Reachable behave) (start : first.Converging Drifts) : m.Converging Drifts := by
  refine course.induct reachable start ?_ ?_
  · intro m coherent goesOn converging
    refine converging.step coherent goesOn (fun _ => .refl) fun unaccepted settings drifts => ?_
    exact drifts.trans ((coherent.advance behave).delivery.drifts unaccepted)
  · intro m script coherent idle converging
    exact converging.next coherent idle script

/-- A smooth step changes the configuration in force by accepting another one only. -/
theorem Smooth.live_eq (smooth : m.Smooth) (coherent : m.Coherent)
    (unaccepted : m.happening?.bind Happening.accepted? = none) :
    (m.step behave).world.store.live = m.world.store.live := by
  have never := smooth.2
  unfold slips at never
  rw [coherent.live_step]
  cases happens : m.happening? with
  | none => rfl
  | some happening =>
    rw [happens] at unaccepted never
    cases happening with
    | accepted => cases unaccepted
    | slipped => cases never
    | _ => rfl

theorem Converging.step_of_smooth (converging : m.Converging Eq) (coherent : m.Coherent)
    (smooth : m.Smooth) : (m.step behave).Converging Eq :=
  converging.step coherent smooth.1 (fun _ => rfl) fun unaccepted _ same =>
    same.trans (smooth.live_eq coherent unaccepted).symm

/-- Without slips either it is what is in force. -/
theorem Course.smooth (course : Course behave Smooth first m) (reachable : first.Reachable behave)
    (start : first.Converging Eq) : m.Converging Eq := by
  refine course.induct reachable start ?_ ?_
  · intro m coherent smooth converging
    exact converging.step_of_smooth coherent smooth
  · intro m script coherent idle converging
    exact converging.next coherent idle script

/-- Accepting a configuration makes up for all slips before. -/
theorem Converging.accepting (converging : m.Converging Drifts) (coherent : m.Coherent)
    (accepts : m.accepts = true) : (m.step behave).Converging Eq := by
  refine converging.step coherent (aborts_of_accepts accepts) (fun _ => rfl) fun unaccepted => ?_
  rw [Machine.accepts, unaccepted] at accepts
  cases accepts

end Machine

end TrainingCollar
