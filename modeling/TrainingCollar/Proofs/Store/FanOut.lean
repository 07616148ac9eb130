import TrainingCollar.Proofs.Store.Ledger

/-! # Hand-outs in order

The calls of hand-outs fall into rounds, one for each configuration that is taken from the pending
ones, and the rounds come in the order in which the configurations were accepted. Within a round
every subscription is called at most once and in the order in which they were made. Together with
the ledger this settles what a run makes of subscriptions that outlast it.
-/

namespace TrainingCollar

variable {κ μ ν : Type}

/-- A configuration and the subscriptions it is handed to, one after the other. -/
structure Round (κ : Type) where
  snapshot : Settings
  called : List (Subscription κ)

/-- The calls of a round. -/
def Round.calls (round : Round κ) : List (Call κ) := round.called.map (⟨·, round.snapshot⟩)

namespace Delivery

variable {d middle last : Delivery κ} {happening : Option (Happening κ)}
  {happenings : List (Happening κ)} {first : List (Call κ)} {rounds : List (Round κ)}

/-- The hand-outs of a path: the end of the round it starts in, and the rounds it begins. -/
structure Rounds (d : Delivery κ) (happenings : List (Happening κ)) (last : Delivery κ)
    (first : List (Call κ)) (rounds : List (Round κ)) : Prop where
  leading : first.Sublist d.upcoming
  handed : handedIn happenings = first ++ rounds.flatMap Round.calls
  accepted : d.store.pending ++ acceptedIn happenings =
    rounds.map Round.snapshot ++ last.store.pending
  ordered : ∀ round ∈ rounds, round.called.Pairwise (·.handle < ·.handle)

/-- A step before the path belongs to the round that the path starts in, or begins it. -/
theorem Orderly.rounds_step (orderly : d.Orderly) (step : Step d happening middle)
    (unaborted : happening ≠ some .aborted) (later : Rounds middle happenings last first rounds) :
    ∃ first rounds, Rounds d (happening.toList ++ happenings) last first rounds := by
  obtain ⟨sub, handed, accepted, ordered⟩ := later
  cases step with
  | quiet | slipped | subscribed | unsubscribed | finished =>
    exact ⟨first, rounds, sub, handed, accepted, ordered⟩
  | queued | opened =>
    refine ⟨first, rounds, sub, handed, ?_, ordered⟩
    rw [← accepted]
    simp [Store.announce, Store.hold]
  | @begun store turns snapshot pending waits =>
    have alone := orderly.tail_eq_nil
    subst alone
    simp only [upcoming, List.flatMap_cons, Turn.upcoming, List.flatMap_nil, List.append_nil,
      List.sublist_map_iff] at sub
    obtain ⟨called, among, rfl⟩ := sub
    have order := (orderly.subscriptions.sublist among).1
    refine ⟨[], ⟨snapshot, called⟩ :: rounds, List.nil_sublist _, handed, ?_,
      List.forall_mem_cons.mpr ⟨order, ordered⟩⟩
    simpa [waits] using accepted
  | @handed store turns snapshot subscription waiting serving =>
    refine ⟨⟨subscription, snapshot⟩ :: first, rounds, sub.cons_cons _, ?_, accepted, ordered⟩
    simp [handed]
  | skipped => exact ⟨first, rounds, sub.cons _, handed, accepted, ordered⟩
  | rested empty =>
    refine ⟨first, rounds, sub, handed, ?_, ordered⟩
    rw [← accepted]
    simp [Store.rest, empty]
  | aborted => exact absurd rfl unaborted

theorem Path.exists_rounds (path : Path d happenings last) (orderly : d.Orderly)
    (unaborted : .aborted ∉ happenings) : ∃ first rounds, Rounds d happenings last first rounds := by
  induction path with
  | nil d => exact ⟨[], [], List.nil_sublist _, rfl, List.append_nil _, List.forall_mem_nil _⟩
  | cons step _ ih =>
    obtain ⟨now, later⟩ := unaborted_cons unaborted
    obtain ⟨first, rounds, rest⟩ := ih (orderly.step step) later
    exact orderly.rounds_step step now rest

end Delivery

namespace Machine

variable {behave : κ → Settings → Script κ μ ν} {m : Machine κ μ ν}

end Machine

end TrainingCollar
