import TrainingCollar.Proofs.Store.History

/-! # The ledger of a subscription

What a delivery owes a subscription is known at every moment: the configuration being handed out, if
the subscription still waits for it, and then everything that is pending. A step pays a debt by
calling the subscription and incurs one by accepting a configuration, and the order is kept. So what
a subscription hears in a run, and what it is owed at the end, is what it was owed at the beginning
and what was accepted since.
-/

namespace TrainingCollar

variable {κ : Type}

/-- The calls that a hand-out has still to make, if nobody unsubscribes. -/
@[simp] def Turn.upcoming : Turn κ → List (Call κ)
  | .next => []
  | .of snapshot waiting => waiting.map (⟨·, snapshot⟩)

namespace Delivery

variable {d last : Delivery κ} {handle : Nat}

/-- The calls that the hand-outs in progress have still to make, if nobody unsubscribes. -/
def upcoming (d : Delivery κ) : List (Call κ) := d.turns.flatMap Turn.upcoming

/-- What a subscription has still to hear. -/
def owed (d : Delivery κ) (handle : Nat) : List Settings :=
  heardBy handle d.upcoming ++ d.store.pending

/-- At rest nothing is owed. -/
theorem Orderly.owed_of_idle (orderly : d.Orderly) (idle : d.store.notifying = false) :
    d.owed handle = [] := by
  rw [owed, upcoming, orderly.turns_eq_nil idle, orderly.idle idle]
  rfl

theorem Orderly.lt_nextHandle (orderly : d.Orderly) (active : d.store.isActive handle = true) :
    handle < d.store.nextHandle := by
  obtain ⟨subscription, member, rfl⟩ := Store.isActive_iff.mp active
  exact orderly.subscriptions.2 subscription member

/-- Nobody is waited for under a handle that is not in use yet. -/
theorem Orderly.lt_of_upcoming (orderly : d.Orderly) {call : Call κ} (comes : call ∈ d.upcoming) :
    call.subscription.handle < d.store.nextHandle := by
  obtain ⟨turn, among, calls⟩ := List.mem_flatMap.mp comes
  have order := orderly.turns turn among
  cases turn with
  | next => cases calls
  | of snapshot waiting =>
    obtain ⟨s, member, rfl⟩ := List.mem_map.mp calls
    exact order.2 s member

end Delivery

/-- A subscription that no call is made to hears nothing. -/
theorem heardBy_eq_nil {handle : Nat} {calls : List (Call κ)}
    (absent : ∀ call ∈ calls, call.subscription.handle ≠ handle) : heardBy handle calls = [] := by
  rw [heardBy, List.filter_eq_nil_iff.mpr fun call member => by simpa using absent call member,
    List.map_nil]

/-- A subscription in a list in order is there once. -/
theorem InOrder.heardBy {bound : Nat} {subscriptions : List (Subscription κ)}
    (order : InOrder bound subscriptions) {s : Subscription κ} (member : s ∈ subscriptions)
    (snapshot : Settings) :
    heardBy s.handle (subscriptions.map (⟨·, snapshot⟩)) = [snapshot] := by
  induction subscriptions with
  | nil => cases member
  | cons first rest ih =>
    obtain ⟨before, ordered⟩ := List.pairwise_cons.mp order.1
    rcases List.mem_cons.mp member with rfl | later
    · have absent : ∀ other ∈ rest, other.handle ≠ s.handle := fun other among =>
        Nat.ne_of_gt (before other among)
      rw [List.map_cons, heardBy_cons_self, heardBy_eq_nil (List.forall_mem_map.mpr absent)]
    · rw [List.map_cons, heardBy_cons_of_ne (Nat.ne_of_lt (before s later))]
      exact ih (order.sublist (List.sublist_cons_self ..)) later

namespace Delivery

variable {d middle last : Delivery κ} {happening : Option (Happening κ)}
  {happenings : List (Happening κ)} {handle : Nat}

/-- A step pays what it hands to a subscription and adds what it accepts. -/
theorem Orderly.owed_step (orderly : d.Orderly) (step : Step d happening middle)
    (active : d.store.isActive handle = true) (unaborted : happening ≠ some .aborted) :
    heardBy handle (handedIn happening.toList) ++ middle.owed handle =
      d.owed handle ++ acceptedIn happening.toList := by
  cases step with
  | quiet | slipped | finished | subscribed | unsubscribed => exact (List.append_nil _).symm
  | queued | opened => simp [owed, upcoming, Store.announce, Store.hold]
  | begun waits =>
    obtain ⟨subscription, member, rfl⟩ := Store.isActive_iff.mp active
    have alone := orderly.tail_eq_nil
    have once := fun snapshot => orderly.subscriptions.heardBy member snapshot
    simp [owed, upcoming, alone, waits, once]
  | @handed store turns snapshot subscription waiting serving =>
    have order : InOrder store.nextHandle (subscription :: waiting) :=
      orderly.turns _ (List.mem_cons_self ..)
    by_cases own : subscription.handle = handle
    · subst own
      have absent : ∀ call ∈ waiting.map (⟨·, snapshot⟩),
          (call : Call κ).subscription.handle ≠ subscription.handle :=
        List.forall_mem_map.mpr fun s among => Nat.ne_of_gt ((List.pairwise_cons.mp order.1).1 s among)
      simp [owed, upcoming, heardBy_cons_self, heardBy_eq_nil absent]
    · simp [owed, upcoming, heardBy_cons_of_ne own]
  | @skipped store turns snapshot subscription waiting gone =>
    have other : subscription.handle ≠ handle := fun own => by
      rw [own] at gone
      exact Bool.noConfusion (active.symm.trans gone)
    simp [owed, upcoming, heardBy_cons_of_ne other]
  | rested empty => simp [owed, upcoming, Store.rest, empty]
  | aborted => exact absurd rfl unaborted

/-- Handles are used once: a handle without a subscription is not called again and stays so. -/
theorem Step.gone (step : Step d happening middle) (old : handle < d.store.nextHandle)
    (gone : d.store.isActive handle = false) :
    handle < middle.store.nextHandle ∧ middle.store.isActive handle = false ∧
      heardBy handle (handedIn happening.toList) = [] := by
  cases step with
  | subscribed store turns listener =>
    refine ⟨Nat.lt_succ_of_lt old, ?_, rfl⟩
    rw [Store.isActive_register, gone]
    simpa using Nat.ne_of_gt old
  | unsubscribed =>
    refine ⟨old, ?_, rfl⟩
    rw [Store.isActive_cancel, gone, Bool.false_and]
  | @handed store turns snapshot subscription waiting serving =>
    have other : subscription.handle ≠ handle := fun own => by
      rw [own] at serving
      exact Bool.noConfusion (serving.symm.trans gone)
    exact ⟨old, gone, heardBy_cons_of_ne other ..⟩
  | aborted =>
    split
    · exact ⟨old, gone, rfl⟩
    · exact ⟨old, gone, rfl⟩
  | _ => exact ⟨old, gone, rfl⟩

theorem Path.gone (path : Path d happenings last) (old : handle < d.store.nextHandle)
    (gone : d.store.isActive handle = false) :
    last.store.isActive handle = false ∧ heardBy handle (handedIn happenings) = [] := by
  induction path with
  | nil => exact ⟨gone, rfl⟩
  | cons step rest ih =>
    obtain ⟨old, gone, silent⟩ := step.gone old gone
    obtain ⟨stillGone, silentAfter⟩ := ih old gone
    refine ⟨stillGone, ?_⟩
    rw [handedIn_append, heardBy_append, silent, silentAfter, List.nil_append]

theorem Step.nextHandle_le (step : Step d happening middle) :
    d.store.nextHandle ≤ middle.store.nextHandle := by
  cases step with
  | subscribed => exact Nat.le_succ _
  | aborted => split <;> exact Nat.le_refl _
  | _ => exact Nat.le_refl _

theorem unaborted_cons (unaborted : .aborted ∉ happening.toList ++ happenings) :
    happening ≠ some .aborted ∧ .aborted ∉ happenings := by
  constructor
  · rintro rfl
    exact unaborted (List.mem_cons_self ..)
  · exact fun later => unaborted (List.mem_append_right _ later)

/-- What is heard and what is still owed at the end is what was owed and what was accepted. -/
theorem Path.heard_append_owed (path : Path d happenings last) (orderly : d.Orderly)
    (active : d.store.isActive handle = true) (kept : last.store.isActive handle = true)
    (unaborted : .aborted ∉ happenings) :
    heardBy handle (handedIn happenings) ++ last.owed handle =
      d.owed handle ++ acceptedIn happenings := by
  induction path with
  | nil => exact (List.append_nil _).symm
  | @cons d middle last happening happenings step rest ih =>
    obtain ⟨now, later⟩ := unaborted_cons unaborted
    have stays : middle.store.isActive handle = true := by
      by_contra gone
      have old := Nat.lt_of_lt_of_le (orderly.lt_nextHandle active) step.nextHandle_le
      have lost := (rest.gone old (Bool.eq_false_iff.mpr gone)).1
      exact Bool.noConfusion (kept.symm.trans lost)
    calc heardBy handle (handedIn (happening.toList ++ happenings)) ++ last.owed handle
      _ = heardBy handle (handedIn happening.toList) ++
          (heardBy handle (handedIn happenings) ++ last.owed handle) := by simp
      _ = heardBy handle (handedIn happening.toList) ++ middle.owed handle ++
          acceptedIn happenings := by rw [ih (orderly.step step) stays kept later, List.append_assoc]
      _ = d.owed handle ++ acceptedIn (happening.toList ++ happenings) := by
        rw [orderly.owed_step step active now, acceptedIn_append, List.append_assoc]

/-- What is heard comes in the order of what is owed and of what is accepted, whether or not the
subscription is removed on the way. -/
theorem Path.heard_prefix (path : Path d happenings last) (orderly : d.Orderly)
    (old : handle < d.store.nextHandle) (unaborted : .aborted ∉ happenings) :
    heardBy handle (handedIn happenings) <+: d.owed handle ++ acceptedIn happenings := by
  induction path with
  | nil => exact List.nil_prefix
  | @cons d middle last happening happenings step rest ih =>
    cases active : d.store.isActive handle with
    | false =>
      rw [((Path.cons step rest).gone old active).2]
      exact List.nil_prefix
    | true =>
      obtain ⟨now, later⟩ := unaborted_cons unaborted
      have stillOld := Nat.lt_of_lt_of_le old step.nextHandle_le
      obtain ⟨missing, complete⟩ := ih (orderly.step step) stillOld later
      refine ⟨missing, ?_⟩
      calc heardBy handle (handedIn (happening.toList ++ happenings)) ++ missing
        _ = heardBy handle (handedIn happening.toList) ++
            (heardBy handle (handedIn happenings) ++ missing) := by simp
        _ = heardBy handle (handedIn happening.toList) ++ middle.owed handle ++
            acceptedIn happenings := by rw [complete, List.append_assoc]
        _ = d.owed handle ++ acceptedIn (happening.toList ++ happenings) := by
          rw [orderly.owed_step step active now, acceptedIn_append, List.append_assoc]

end Delivery

end TrainingCollar
