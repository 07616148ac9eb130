import TrainingCollar.Proofs.Store.KeptFile
import TrainingCollar.Proofs.Store.Recovery
import TrainingCollar.Proofs.Store.Unsubscribing

/-! # One writer, and only while it is wanted

The writer of the settings file is a subscription among others, and the persistence remembers its handle
while the file is kept up to date. Both are compared here as lists: the writers among the subscriptions
are those that the persistence owns, which is one or none. A hand-out that has begun may still wait for
a writer that is gone by now, but it passes over it, because a handle that is waited for and exists
belongs to the subscription that was meant.

Nobody else can remove the writer, since its handle is not among the answers to those who subscribe.
-/

namespace TrainingCollar

variable {κ μ ν : Type}

/-- Whether a listener writes a file. -/
def Listener.isWriter : Listener κ → Bool
  | .writer _ => true
  | .callback _ => false

/-- The subscription of the writer, while the file is kept up to date. -/
def Persistence.owned (p : Persistence) : List (Subscription κ) :=
  p.writer.toList.map (⟨·, .writer p.file⟩)

namespace World

/-- The subscriptions that write files. -/
def writers (w : World κ μ ν) : List (Subscription κ) :=
  w.store.subscriptions.filter (·.listener.isWriter)

/-- The subscriptions that the persistence owns. -/
def owned (w : World κ μ ν) : List (Subscription κ) := w.persistence.toList.flatMap Persistence.owned

/-- Whether the settings file is kept up to date. -/
def enabled (w : World κ μ ν) : Bool := (w.persistence.bind Persistence.writer).isSome

/-- The writers are those that the persistence owns. -/
def Sole (w : World κ μ ν) : Prop := w.writers = w.owned

theorem length_owned (w : World κ μ ν) : w.owned.length = if w.enabled then 1 else 0 := by
  unfold owned enabled
  cases w.persistence with
  | none => rfl
  | some p =>
    obtain ⟨file, writer⟩ := p
    cases writer <;> rfl

theorem Sole.writers_eq_nil {w : World κ μ ν} (sole : w.Sole) (disabled : w.enabled = false) :
    w.writers = [] := by
  apply List.eq_nil_of_length_eq_zero
  rw [sole, length_owned, disabled]
  rfl

end World

/-- An attempt makes no subscription and removes none. -/
theorem enlist_attempt (live : Settings) (a : Attempt) (subscriptions : List (Subscription κ)) :
    (a.happening? live).toList.foldl Happening.enlist subscriptions = subscriptions := by
  unfold Attempt.happening?
  split
  · rfl
  · split <;> rfl

theorem enlist_reloading (w : World κ μ ν) (file : Path) (subscriptions : List (Subscription κ)) :
    (w.reloading? file).toList.foldl Happening.enlist subscriptions = subscriptions := by
  unfold World.reloading?
  split
  · exact enlist_attempt ..
  · rfl

/-- What removing a subscription leaves of them, if it exists or not. -/
theorem World.enlist_removal (w : World κ μ ν) (handle : Nat) :
    (w.removal? handle).toList.foldl Happening.enlist w.store.subscriptions =
      w.store.subscriptions.filter (·.handle != handle) := by
  unfold removal?
  split
  · rfl
  · next inactive =>
    exact (congrArg Store.subscriptions (Store.cancel_of_gone (Bool.eq_false_iff.mpr inactive))).symm

theorem World.enable_of_filing {w : World κ μ ν} {script : Script κ μ ν} {p : Persistence}
    (starts : w.filing script = .enabled p) : ∃ answer, script = .enable answer := by
  obtain ⟨store, files, persistence, memory, trace⟩ := w
  cases script with
  | enable answer => exact ⟨answer, rfl⟩
  | reload next =>
    rcases persistence with _ | persistence
    · cases starts
    · change reloadFiling _ persistence = _ at starts
      unfold reloadFiling at starts
      split at starts <;> cases starts
  | disable answer => rcases persistence with _ | ⟨file, _ | handle⟩ <;> cases starts
  | _ => cases starts

namespace Machine

variable {behave : κ → Settings → Script κ μ ν} {first m later : Machine κ μ ν}

/-- Whether the next step leaves the writer alone, as far as others are concerned. -/
def leavesWriter (m : Machine κ μ ν) : Bool :=
  match m.control with
  | .run (.unsubscribe handle _) => !m.world.owned.any (·.handle == handle)
  | _ => true

/-- Whether the next step starts to keep the settings file up to date. -/
def enables (m : Machine κ μ ν) : Bool :=
  match m.control with
  | .run (.enable _) => true
  | _ => false

end Machine

/-- The writers are those that are owned once the next command of a script has been taken. -/
def World.SoleAfter (w : World κ μ ν) (script : Script κ μ ν) : Prop :=
  ((w.happening? script).toList.foldl Happening.enlist w.store.subscriptions).filter
    (·.listener.isWriter) = ((w.filing script).persistence w).toList.flatMap Persistence.owned

namespace World.Sole

variable {w : World κ μ ν}

theorem writing_eq (sole : w.Sole) : w.store.subscriptions.filter (·.listener.isWriter) =
    w.persistence.toList.flatMap Persistence.owned := sole

theorem unsubscribe (sole : w.Sole) {handle : Nat} (leaves : ∀ s ∈ w.owned, s.handle ≠ handle)
    (next : Script κ μ ν) : w.SoleAfter (.unsubscribe handle next) := by
  rw [SoleAfter, happening?, enlist_removal, List.filter_comm, sole.writing_eq]
  exact List.filter_eq_self.mpr fun s member => bne_iff_ne.mpr (leaves s member)

theorem reload (sole : w.Sole) (answer : Option Fault → Script κ μ ν) :
    w.SoleAfter (.reload answer) := by
  obtain ⟨store, files, persistence, memory, trace⟩ := w
  cases persistence with
  | none => exact sole
  | some p =>
    let w : World κ μ ν := ⟨store, files, some p, memory, trace⟩
    have unchanged : (w.reloadFiling p).persistence w = some p := by
      unfold reloadFiling
      split <;> rfl
    change List.filter _ ((w.reloading? p.file).toList.foldl Happening.enlist w.store.subscriptions) =
      ((w.reloadFiling p).persistence w).toList.flatMap Persistence.owned
    rw [unchanged, enlist_reloading]
    exact sole

theorem enable (sole : w.Sole) (answer : Option Fault → Script κ μ ν) :
    w.SoleAfter (.enable answer) := by
  obtain ⟨store, files, persistence, memory, trace⟩ := w
  rcases persistence with _ | ⟨file, _ | handle⟩
  · exact sole
  · change (store.subscriptions ++ [_]).filter _ = _
    have nobody : store.subscriptions.filter (·.listener.isWriter) = [] := sole
    rw [List.filter_append, nobody]
    rfl
  · exact sole

theorem disable (sole : w.Sole) (answer : Option Fault → Script κ μ ν) :
    w.SoleAfter (.disable answer) := by
  obtain ⟨store, files, persistence, memory, trace⟩ := w
  rcases persistence with _ | ⟨file, _ | handle⟩
  · exact sole
  · exact sole
  · let w : World κ μ ν := ⟨store, files, some ⟨file, some handle⟩, memory, trace⟩
    have own : w.store.subscriptions.filter (·.listener.isWriter) = [⟨handle, .writer file⟩] := sole
    change ((w.removal? handle).toList.foldl Happening.enlist w.store.subscriptions).filter _ = []
    rw [enlist_removal, List.filter_comm, own]
    exact List.filter_cons_of_neg (by simp)

/-- What happens by the next command of a script keeps the writers and those that are owned the same. -/
theorem obey (sole : w.Sole) (script : Script κ μ ν)
    (leaves : ∀ handle next, script = .unsubscribe handle next → ∀ s ∈ w.owned, s.handle ≠ handle) :
    w.SoleAfter script := by
  cases script with
  | mutate mutation answer =>
    rw [SoleAfter, happening?, enlist_attempt]
    exact sole
  | subscribe callback answer =>
    change (w.store.subscriptions ++ [_]).filter _ = _
    rw [List.filter_append]
    exact (List.append_nil _).trans sole
  | unsubscribe handle next => exact sole.unsubscribe (leaves handle next rfl) next
  | reload answer => exact sole.reload answer
  | enable answer => exact sole.enable answer
  | disable answer => exact sole.disable answer
  | _ => exact sole

end World.Sole

namespace Delivery

variable {d middle : Delivery κ} {happening : Option (Happening κ)}

/-- Who is waited for and exists by its handle is the subscription that has this handle. -/
def Backed (d : Delivery κ) : Prop :=
  ∀ s, d.Listed s → d.store.isActive s.handle = true → s ∈ d.store.subscriptions

/-- A subscription that still exists by its handle is still there. -/
theorem Step.mem_after {s : Subscription κ} (step : Step d happening middle)
    (member : s ∈ d.store.subscriptions) (active : middle.store.isActive s.handle = true) :
    s ∈ middle.store.subscriptions := by
  rw [step.subscriptions_eq]
  cases step with
  | subscribed => exact List.mem_append_left _ member
  | unsubscribed =>
    rw [Store.isActive_cancel, Bool.and_eq_true] at active
    exact List.mem_filter.mpr ⟨member, active.2⟩
  | _ => exact member

theorem Backed.step (backed : d.Backed) (orderly : d.Orderly) (step : Step d happening middle) :
    middle.Backed := by
  intro s listed active
  rcases step.listed listed with before | ⟨_, call, subscribes, rfl⟩
  · rcases step.isActive_before active with existed | ⟨new, _⟩
    · exact step.mem_after (backed s before existed) active
    · exact absurd new (Nat.ne_of_lt (orderly.lt_of_listed before))
  · subst subscribes
    obtain ⟨isNew, after⟩ := step.subscribed_eq
    rw [after, isNew]
    exact List.mem_append_right _ (List.mem_singleton_self _)

end Delivery

namespace Machine

variable {behave : κ → Settings → Script κ μ ν} {first m later : Machine κ μ ν}

/-- The writers are those that the persistence owns, and hand-outs mistake nobody for them. -/
structure Tended (m : Machine κ μ ν) : Prop where
  sole : m.world.Sole
  backed : m.delivery.Backed

theorem Fresh.tended {initial : Value} (fresh : first.Fresh initial) : first.Tended := by
  obtain ⟨started, files, file, memory, script⟩ := fresh
  obtain ⟨settings, _, rfl⟩ := Store.start_eq_ok started
  constructor
  · cases file <;> rfl
  · intro s listed active
    cases active

theorem Tended.next (tended : m.Tended) (script : Script κ μ ν) : (start m.world script).Tended :=
  ⟨tended.sole, fun s listed => tended.backed s (listed_of_start listed)⟩

/-- Hand-outs change neither subscriptions nor the persistence. -/
theorem Tended.sole_step (tended : m.Tended) (coherent : m.Coherent) (leaves : m.leavesWriter = true) :
    (m.step behave).world.Sole := by
  have subscriptions : (m.step behave).world.store.subscriptions = _ :=
    (coherent.advance behave).delivery.subscriptions_eq
  have persistence := (step_filed behave m).2.persistence
  unfold World.Sole World.writers World.owned
  rw [subscriptions, persistence]
  cases control : m.control with
  | run script =>
    simp only [happening?, filing, control]
    refine tended.sole.obey script ?_
    rintro handle next rfl s member same
    rw [leavesWriter, control, Bool.not_eq_true', List.any_eq_false] at leaves
    exact leaves s member (beq_iff_eq.mpr same)
  | deliver snapshot waiting next =>
    cases waiting with
    | nil =>
      simp only [happening?, filing, control]
      exact tended.sole
    | cons s waiting =>
      simp only [happening?, filing, control]
      obtain ⟨handle, listener⟩ := s
      split
      · cases listener <;> exact tended.sole
      · exact tended.sole
  | drain next =>
    simp only [happening?, filing, control]
    cases m.world.store.pending.head? <;> exact tended.sole
  | ended outcome =>
    simp only [happening?, filing, control]
    exact tended.sole

theorem Tended.step (tended : m.Tended) (coherent : m.Coherent) (leaves : m.leavesWriter = true) :
    (m.step behave).Tended :=
  ⟨tended.sole_step coherent leaves,
    tended.backed.step coherent.orderly (coherent.advance behave).delivery⟩

/-- While the settings file is not kept up to date, nobody who is waited for writes it. -/
theorem Tended.inactive (tended : m.Tended) (disabled : m.world.enabled = false) {snapshot : Settings}
    {handle : Nat} {file : Path} {waiting : List (Subscription κ)} {next : Script κ μ ν}
    (serving : m.control = .deliver snapshot (⟨handle, .writer file⟩ :: waiting) next) :
    m.world.store.isActive handle = false := by
  rw [← Bool.not_eq_true]
  intro active
  have turn : .of snapshot (⟨handle, .writer file⟩ :: waiting) ∈ m.delivery.turns := by
    change _ ∈ m.control.turn?.toList ++ _
    rw [serving]
    exact List.mem_cons_self
  have member := tended.backed ⟨handle, .writer file⟩ (.inr ⟨_, _, turn, List.mem_cons_self⟩) active
  have writes : ⟨handle, .writer file⟩ ∈ m.world.writers := List.mem_filter.mpr ⟨member, rfl⟩
  rw [tended.sole.writers_eq_nil disabled] at writes
  cases writes

/-- The next step changes files by other means than the writer: somebody edits them, or the settings file
is missing and written when it should be read. -/
def ChangesFiles (behave : κ → Settings → Script κ μ ν) (m : Machine κ μ ν) : Prop :=
  (∃ change next, m.control = .run (.edit change next)) ∨
    ∃ next p, m.control = .run (.reload next) ∧ m.world.persistence = some p ∧
      m.world.files.exists? p.file = .ok false ∧
      (m.step behave).world.files = (m.world.store.live.save m.world.files p.file).1

/-- Starting and ceasing to keep the settings file up to date leaves files as they are. -/
theorem files_of_switching {answer : Option Fault → Script κ μ ν}
    (switches : m.control = .run (.enable answer) ∨ m.control = .run (.disable answer)) :
    (m.step behave).world.files = m.world.files := by
  rw [(step_filed behave m).2.files]
  obtain ⟨⟨store, files, persistence, memory, trace⟩, stack, control⟩ := m
  rcases switches with switches | switches
  · obtain rfl : control = _ := switches
    rcases persistence with _ | ⟨file, _ | handle⟩ <;> rfl
  · obtain rfl : control = _ := switches
    rcases persistence with _ | ⟨file, _ | handle⟩ <;> rfl

theorem Tended.changesFiles (tended : m.Tended) (disabled : m.world.enabled = false)
    (changes : (m.step behave).world.files ≠ m.world.files) : m.ChangesFiles behave := by
  have files := (step_filed behave m).2.files
  have quiet (isQuiet : m.filing = .quiet) : m.ChangesFiles behave := by
    rw [files, isQuiet] at changes
    exact absurd rfl changes
  cases control : m.control with
  | run script =>
    cases script with
    | edit change next => exact .inl ⟨change, next, control⟩
    | reload next =>
      have reloads : m.filing = m.world.persistence.elim .quiet m.world.reloadFiling := by
        rw [filing, control]
        rfl
      cases persists : m.world.persistence with
      | none =>
        rw [persists] at reloads
        exact quiet reloads
      | some p =>
        rw [persists, Option.elim_some, World.reloadFiling] at reloads
        split at reloads
        · next absent =>
          rw [reloads] at files
          exact .inr ⟨next, p, control, persists, absent, files⟩
        · exact quiet reloads
    | enable answer => exact absurd (files_of_switching (.inl control)) changes
    | disable answer => exact absurd (files_of_switching (.inr control)) changes
    | _ => exact quiet (by rw [filing, control]; rfl)
  | deliver snapshot waiting next =>
    rcases waiting with _ | ⟨⟨handle, c | file⟩, waiting⟩
    · exact quiet (by rw [filing, control])
    · refine quiet ?_
      rw [filing, control]
      exact ite_self _
    · refine quiet ?_
      have inactive := tended.inactive disabled control
      rw [filing, control]
      exact if_neg (Bool.eq_false_iff.mp inactive)
  | _ => exact quiet (by rw [filing, control])

/-- Only the command to keep the settings file up to date does so. -/
theorem enables_of_filing {p : Persistence} (starts : m.filing = .enabled p) : m.enables = true := by
  cases control : m.control with
  | run script =>
    rw [filing, control] at starts
    obtain ⟨answer, rfl⟩ := World.enable_of_filing starts
    rw [enables, control]
  | deliver snapshot waiting next =>
    rw [filing, control] at starts
    rcases waiting with _ | ⟨⟨handle, c | file⟩, waiting⟩
    · cases starts
    · dsimp only at starts
      split at starts <;> cases starts
    · dsimp only at starts
      split at starts <;> cases starts
  | _ =>
    rw [filing, control] at starts
    cases starts

theorem enabled_step (disabled : m.world.enabled = false) (others : m.enables = false) :
    (m.step behave).world.enabled = false := by
  have same := (step_filed behave m).2.persistence
  unfold World.enabled at disabled ⊢
  rw [same]
  cases isFiling : m.filing with
  | enabled p => exact absurd (enables_of_filing isFiling) (by rw [others]; nofun)
  | disabled p => rfl
  | _ => exact disabled

/-- After the command to cease, the settings file is not kept up to date. -/
theorem enabled_of_disabling {answer : Option Fault → Script κ μ ν}
    (ceases : m.control = .run (.disable answer)) : (m.step behave).world.enabled = false := by
  have same := (step_filed behave m).2.persistence
  unfold World.enabled
  rw [same]
  obtain ⟨⟨store, files, persistence, memory, trace⟩, stack, control⟩ := m
  obtain rfl : control = _ := ceases
  rcases persistence with _ | ⟨file, _ | handle⟩ <;> rfl

/-- Whatever callers and callbacks do, as long as nobody but the persistence removes its writer: there is
one writer while the settings file is kept up to date, and none otherwise. To start and to cease to do so
changes no file. Once it has ceased, and until it starts again, no step changes a file but those that
edit one behind the store's back and those that read the settings file when it is missing. -/
theorem Course.writer_is_sole {initial : Value} (fresh : first.Fresh initial)
    (course : Course behave (·.leavesWriter) first m) :
    (m.world.writers = m.world.owned ∧
      m.world.writers.length = if m.world.enabled then 1 else 0) ∧
    (∀ answer, m.control = .run (.enable answer) ∨ m.control = .run (.disable answer) →
      (m.step behave).world.files = m.world.files) ∧
    ∀ answer, m.control = .run (.disable answer) → ∀ {later : Machine κ μ ν},
      Course behave (fun m => m.leavesWriter ∧ m.enables = false) (m.step behave) later →
        later.world.enabled = false ∧
          ((later.step behave).world.files ≠ later.world.files → later.ChangesFiles behave) := by
  have reachable : m.Reachable behave := course.reachable fresh.reachable
  have tended : m.Tended := by
    refine course.induct fresh.reachable fresh.tended ?_ ?_
    · intro m coherent leaves tended
      exact tended.step coherent leaves
    · intro m script coherent idle tended
      exact tended.next script
  refine ⟨⟨tended.sole, ?_⟩, fun answer => files_of_switching, fun answer ceases later rest => ?_⟩
  · rw [tended.sole, World.length_owned]
  have leaves : m.leavesWriter = true := by rw [leavesWriter, ceases]
  let holds (m : Machine κ μ ν) : Prop := m.Tended ∧ m.world.enabled = false
  have begins : holds (m.step behave) :=
    ⟨tended.step reachable.coherent leaves, enabled_of_disabling ceases⟩
  have kept : holds later := by
    refine rest.induct reachable.step begins ?_ ?_
    · rintro m coherent ⟨leaves, others⟩ ⟨tended, disabled⟩
      exact ⟨tended.step coherent leaves, enabled_step disabled others⟩
    · rintro m script coherent idle ⟨tended, disabled⟩
      exact ⟨tended.next script, disabled⟩
  exact ⟨kept.2, kept.1.changesFiles kept.2⟩

end Machine

namespace Hearer

/-- Callbacks of which one ceases to keep the settings file up to date when it hears of a change, and
answers the change with another one. -/
def quitting : Hearer → Settings → Script Hearer Unit Unit
  | eager, snapshot =>
    if Settings.microphone? snapshot = some 28 then
      .disable fun _ => .mutate (.replace (.settings (Settings.ofMicrophone 29))) fun _ => .done
    else .done
  | quiet, _ => .done

/-- It subscribes, the settings file is kept up to date, twice, and a change is made. -/
def watched : Machine Hearer Unit Unit :=
  .start ⟨.ofSettings .defaults, .empty [], some ⟨⟨"", ["settings.yaml"]⟩, none⟩, (), [.logged .passed]⟩
    (.subscribe .eager fun _ => .enable fun _ => .enable fun _ =>
      .mutate (.replace (.settings (Settings.ofMicrophone 28))) fun _ => .done)

/-- Whether the next step ceases to keep the settings file up to date. -/
def disables (m : Machine Hearer Unit Unit) : Bool :=
  match m.control with
  | .run (.disable _) => true
  | _ => false

theorem exists_of_disables {m : Machine Hearer Unit Unit} (ceases : disables m = true) :
    ∃ answer, m.control = .run (.disable answer) := by
  unfold disables at ceases
  split at ceases
  · next answer control => exact ⟨answer, control⟩
  · cases ceases

end Hearer

namespace Machine

open Hearer in
/-- The writer is removed while the hand-out waits for it, with another change to come, and nothing is
written: there are no more files in the end than in the beginning. -/
theorem writer_is_sole_watched :
    let ceasing := watched.run quitting 7
    let ended := (ceasing.step quitting).run quitting 12
    (ceasing.world.writers.length = 1 ∧ ceasing.world.enabled = true ∧
      ceasing.world.store.notifying = true) ∧
    ended.outcome?.isSome ∧ ended.world.enabled = false ∧ ended.world.writers.length = 0 ∧
      ended.world.store.live.microphone? = some 29 ∧
      ended.world.files.entries.map Prod.fst = (FileTree.empty []).entries.map Prod.fst := by
  intro ceasing ended
  have fresh : Fresh .null watched := .of Store.start_null _ (some ⟨"", ["settings.yaml"]⟩) () _
  have before : Course quitting (·.leavesWriter) watched ceasing := .run (by decide +kernel)
  obtain ⟨answer, ceases⟩ := exists_of_disables (by decide +kernel : disables ceasing = true)
  obtain ⟨⟨_, single⟩, _, stays⟩ := Course.writer_is_sole fresh before
  have enabled : ceasing.world.enabled = true := by decide +kernel
  rw [enabled] at single
  have after : Course quitting (fun m => m.leavesWriter ∧ m.enables = false) (ceasing.step quitting)
      ended := .run (by decide +kernel)
  obtain ⟨disabled, _⟩ := stays answer ceases after
  exact ⟨⟨single, enabled, by decide +kernel⟩, by decide +kernel, disabled, by decide +kernel⟩

end Machine

end TrainingCollar
