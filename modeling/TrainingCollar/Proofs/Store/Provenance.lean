import TrainingCollar.Proofs.Failure
import TrainingCollar.Proofs.Genuine
import TrainingCollar.Proofs.Store.Convergence

/-! # Where configurations come from

A caller hands steps and configurations to a store by mutations only, and what a settings file holds is
built on loading. So what the first configuration has, and what mutations and loading keep, every
configuration has that is ever in force or handed to a listener. Two properties are followed this way.
Without lists in the bounds of the loudness or inside steps, all configurations are valid. And if every
mutation on the way is genuine, all are canonical; no edit slips then.
-/

namespace TrainingCollar

variable {κ μ ν : Type}

/-! ## Steps that are built -/

namespace Step.Canonical

variable {s : Step}

theorem shaped (canonical : s.Canonical) : s.Shaped := by
  obtain ⟨kind, _, isKind⟩ := canonical.kind
  obtain ⟨timeMode, _, isTimeMode⟩ := canonical.timeMode
  obtain ⟨strengthMode, _, isStrengthMode⟩ := canonical.strengthMode
  obtain ⟨time, isTime, _⟩ := canonical.time.items
  obtain ⟨strength, isStrength, _⟩ := canonical.strength.items
  exact ⟨⟨_, isKind⟩, ⟨_, isTimeMode⟩, ⟨_, isTime⟩, ⟨_, isStrengthMode⟩, ⟨_, isStrength⟩⟩

/-- Numbers that a field takes are far below the limit of digits. -/
theorem isWritable (canonical : s.Canonical) : s.isWritable = true := by
  have writable {range : Value} (isRange : range.IsRange) :
      (Value.list (range.items?.getD [])).hasText = true := by
    obtain ⟨items, isItems, _, _, numbers⟩ := isRange.items
    rw [isItems, Option.getD_some]
    exact Value.hasText_list fun item member => (numbers item member).hasText
  simp only [Step.isWritable, List.all_cons, List.all_nil, writable canonical.time,
    writable canonical.strength, Bool.and_self]

theorem brief (canonical : s.Canonical) : ∃ text, s.brief = .ok text := by
  rcases canonical.shaped.brief with ⟨written, _⟩ | ⟨_, long⟩
  · exact written
  · exact Bool.noConfusion (canonical.isWritable.symm.trans long)

end Step.Canonical

/-- A genuine mutation of a canonical configuration does not slip. -/
theorem Slip.not_of_genuine {live changed : Settings} {mutation : Mutation}
    (genuine : mutation.Genuine) (canonical : live.Canonical) : ¬ Slip live mutation changed := by
  intro slip
  cases slip with
  | added _ isRead _ _ long =>
    have built := Step.canonical_of_read genuine isRead
    exact Bool.noConfusion (built.isWritable.symm.trans long)
  | @removed _ _ which position step items _ isList _ there long =>
    obtain ⟨steps, isSteps, all⟩ := canonical.steps which
    obtain rfl := Value.list.inj (isList.symm.trans isSteps)
    obtain ⟨found, member, same⟩ := List.mem_map.mp (List.mem_of_getElem? there)
    cases same
    exact Bool.noConfusion ((all _ member).isWritable.symm.trans long)

/-! ## Lists that stand in their own fields -/

/-- The lists of a canonical configuration stand in no bound of the loudness and inside no step. -/
theorem Settings.Canonical.isApart {s : Settings} (canonical : s.Canonical) :
    s.sharing.isApart = true := by
  rw [canonical.alone]
  rfl

/-- If a configuration is passed, no list stands in its bounds of the loudness or inside its steps. -/
def Value.isApart : Value → Bool
  | .settings s => s.sharing.isApart
  | _ => true

/-- If a mutation puts another configuration in place, no list stands in its bounds or inside its steps. -/
def Mutation.isApart : Mutation → Bool
  | replace settings => settings.isApart
  | _ => true

/-- What an attempt leaves is what was there, a merger with it, a replacement for it, or an edit of it. -/
theorem Mutation.live_cases (live : Settings) (mutation : Mutation) :
    (mutation.attempt live).live = live ∨
      (∃ entries changed, live.merged entries = .ok (changed, (mutation.attempt live).live)) ∨
      mutation = .replace (.settings (mutation.attempt live).live) ∨
      ∃ which edit, live.withSteps which edit = .ok (mutation.attempt live).live := by
  cases mutation with
  | update changes fields =>
    simp only [Mutation.attempt, Settings.attemptUpdate]
    split
    · exact .inl rfl
    · split
      · next merged => exact .inr (.inl ⟨_, _, merged⟩)
      · split
        · exact .inl (Attempt.live_rejected ..)
        · exact .inl rfl
  | replace settings =>
    simp only [Mutation.attempt, Settings.attemptReplace]
    split
    · split
      · exact .inr (.inr (.inl rfl))
      · exact .inl (Attempt.live_rejected ..)
    · exact .inl rfl
  | add key step =>
    simp only [Mutation.attempt, Settings.attemptAdd]
    split
    · exact .inl rfl
    · split
      · exact .inl (Attempt.live_rejected ..)
      · split
        · exact .inl rfl
        · next edit =>
          rw [Attempt.live_edited]
          exact .inr (.inr (.inr ⟨_, _, edit⟩))
  | remove key index =>
    simp only [Mutation.attempt, Settings.attemptRemove]
    split
    · exact .inl rfl
    · split
      · exact .inl rfl
      · next edit =>
        rw [Attempt.live_edited]
        exact .inr (.inr (.inr ⟨_, _, edit⟩))

/-- Updates give each list its own field, and edits put none in another place. -/
theorem Mutation.isApart_attempt {mutation : Mutation} (apart : mutation.isApart = true)
    {live : Settings} (before : live.sharing.isApart = true) :
    (mutation.attempt live).live.sharing.isApart = true := by
  rcases mutation.live_cases live with same | ⟨entries, changed, merged⟩ | isReplacement |
    ⟨which, edit, edited⟩
  · rw [same]
    exact before
  · simp only [Settings.merged, ↓check_eq_ok_iff, bind_eq_ok_iff, pure_eq_ok_iff,
      Prod.mk.injEq] at merged
    obtain ⟨_, _, _, built, _, _, isCandidate⟩ := merged
    rw [← isCandidate, (Settings.build_eq_ok_iff.mp built).2]
    rfl
  · rwa [isReplacement] at apart
  · obtain ⟨items, _, isEdited⟩ := Settings.withSteps_eq_ok_iff.mp edited
    rw [← isEdited]
    exact edit.isApart_sharing before

namespace Machine

variable {behave : κ → Settings → Script κ μ ν} {allowed : Machine κ μ ν → Prop}
  {holds : Settings → Prop} {first m : Machine κ μ ν}

/-- The mutation that the next step tries. -/
def tried? (m : Machine κ μ ν) : Option Mutation :=
  match m.control with
  | .run (.mutate mutation _) => some mutation
  | _ => none

/-- Whether a configuration that the next step tries to put in place keeps its lists out of the bounds of
the loudness and out of the steps. -/
def isApart (m : Machine κ μ ν) : Bool := m.tried?.all Mutation.isApart

/-- The mutation that the next step tries, if it tries one, is genuine. -/
def Genuine (m : Machine κ μ ν) : Prop := ∀ mutation, m.tried? = some mutation → mutation.Genuine

/-- What changes the configuration in force is an attempt: that of a mutation, or the one to put a
configuration in place that was loaded. -/
theorem exists_attempt {happening : Happening κ} (happens : m.happening? = some happening)
    {s : Settings} (changes : happening.changed? = some s) :
    ∃ attempt : Attempt, attempt.happening? m.world.store.live = some happening ∧
      ((∃ mutation, m.tried? = some mutation ∧ attempt = mutation.attempt m.world.store.live) ∨
        ∃ file settings, (Settings.load m.world.files file).outcome = .ok settings ∧
          attempt = m.world.store.live.attemptReplace (.settings settings)) := by
  unfold happening? at happens
  split at happens
  · next script control =>
    cases script with
    | mutate mutation answer => exact ⟨_, happens, .inl ⟨mutation, by rw [tried?, control], rfl⟩⟩
    | reload answer =>
      obtain ⟨p, _, reloads⟩ := Option.bind_eq_some_iff.mp happens
      unfold World.reloading? at reloads
      split at reloads
      · next settings _ loaded => exact ⟨_, reloads, .inr ⟨p.file, settings, loaded, rfl⟩⟩
      · cases reloads
    | unsubscribe handle next =>
      simp only [World.happening?, World.removal?] at happens
      split at happens <;> cases happens
      cases changes
    | enable answer =>
      obtain ⟨p, _, enables⟩ := Option.bind_eq_some_iff.mp happens
      unfold World.enabling? at enables
      split at enables <;> cases enables
      cases changes
    | disable answer =>
      obtain ⟨p, _, disables⟩ := Option.bind_eq_some_iff.mp happens
      obtain ⟨handle, _, removed⟩ := Option.bind_eq_some_iff.mp disables
      unfold World.removal? at removed
      split at removed <;> cases removed
      cases changes
    | subscribe | abort =>
      cases happens
      cases changes
    | _ => cases happens
  · split at happens <;> cases happens
    cases changes
  · obtain ⟨snapshot, _, rfl⟩ := Option.map_eq_some_iff.mp happens
    cases changes
  · cases happens

/-- A property of configurations that mutations and loading keep. -/
structure Conserves (holds : Settings → Prop) (m : Machine κ μ ν) : Prop where
  tried : ∀ mutation, m.tried? = some mutation → holds m.world.store.live →
    holds (mutation.attempt m.world.store.live).live
  loaded : ∀ file settings, (Settings.load m.world.files file).outcome = .ok settings → holds settings

theorem Conserves.changed (conserves : m.Conserves holds) (before : holds m.world.store.live) {s : Settings}
    (changes : m.happening?.bind Happening.changed? = some s) : holds s := by
  obtain ⟨happening, happens, isChanged⟩ := Option.bind_eq_some_iff.mp changes
  obtain ⟨attempt, amounts, made⟩ := exists_attempt happens isChanged
  have isLive : s = attempt.live := by
    unfold Attempt.happening? at amounts
    split at amounts
    · cases amounts
      exact (Option.some.inj isChanged).symm
    · split at amounts <;> cases amounts
      exact (Option.some.inj isChanged).symm
  rw [isLive]
  rcases made with ⟨mutation, tries, rfl⟩ | ⟨file, settings, loaded, rfl⟩
  · exact conserves.tried mutation tries before
  · rw [Settings.attemptReplace_of_valid (Settings.valid_of_load loaded)]
    exact conserves.loaded file settings loaded

/-- A configuration that is loaded from a file has its lists in their own fields. -/
theorem conserves_isApart (apart : m.isApart = true) : m.Conserves (·.sharing.isApart = true) where
  tried mutation tries before := by
    rw [isApart, tries] at apart
    exact mutation.isApart_attempt apart before
  loaded _ _ loaded := (Settings.canonical_of_load loaded).isApart

theorem Genuine.conserves_canonical (genuine : m.Genuine) : m.Conserves Settings.Canonical where
  tried mutation tries canonical := (genuine mutation tries).canonical canonical
  loaded _ _ := Settings.canonical_of_load

/-- A store is started with what it is given, or with the defaults. -/
theorem Fresh.all {initial : Value} (fresh : first.Fresh initial) (defaults : holds .defaults)
    (given : ∀ settings, initial = .settings settings → holds settings) : first.All holds := by
  obtain ⟨started, files, file, memory, script⟩ := fresh
  cases initial with
  | null =>
    rw [Store.start_null] at started
    cases started
    exact .first defaults ..
  | settings s =>
    simp only [Store.start, check_eq_ok_iff, pure_eq_ok_iff] at started
    obtain ⟨_, rfl⟩ := started
    exact .first (given s rfl) ..
  | _ => cases started

/-- What the first configuration has, and what all steps keep, every configuration has. -/
theorem Course.all (course : Course behave allowed first m) (reachable : first.Reachable behave)
    (start : first.All holds) (conserves : ∀ m, allowed m → m.Conserves holds) : m.All holds := by
  refine course.induct reachable start ?_ ?_
  · intro m coherent permitted all
    exact all.step (coherent.advance behave) fun _ => (conserves m permitted).changed all.delivery.live
  · intro m script _ _ all
    exact all.start script

theorem Fresh.canonical {initial : Value} (fresh : first.Fresh initial) (genuine : initial.Genuine) :
    first.All Settings.Canonical := by
  refine fresh.all Settings.defaults_canonical ?_
  rintro settings rfl
  exact Settings.built_iff.mp genuine

/-- If everything that is passed in is genuine, the configuration in force is always canonical. -/
theorem Course.canonical {initial : Value} (fresh : first.Fresh initial)
    (genuine : initial.Genuine) (course : Course behave allowed first m)
    (allGenuine : ∀ m, allowed m → m.Genuine) : m.world.store.live.Canonical := by
  have all := course.all fresh.reachable (fresh.canonical genuine) fun m permitted =>
    (allGenuine m permitted).conserves_canonical
  exact all.delivery.live

theorem Genuine.canonical_step (genuine : m.Genuine) (coherent : m.Coherent)
    (canonical : m.world.store.live.Canonical) :
    (m.step behave).world.store.live.Canonical := by
  rw [coherent.live_step]
  cases changes : m.happening?.bind Happening.changed? with
  | none => exact canonical
  | some s => exact genuine.conserves_canonical.changed canonical changes

/-- Where everything is genuine and canonical no edit slips. -/
theorem Genuine.slips (genuine : m.Genuine) (coherent : m.Coherent)
    (canonical : m.world.store.live.Canonical) : m.slips = false := by
  unfold Machine.slips
  split
  · next s slipped =>
    obtain ⟨attempt, amounts, made⟩ := exists_attempt slipped rfl
    rcases made with ⟨mutation, tries, rfl⟩ | ⟨file, settings, loaded, rfl⟩
    · have never (changed : Settings) : ¬ Slip m.world.store.live mutation changed :=
        Slip.not_of_genuine (genuine mutation tries) canonical
      cases outcome : (mutation.attempt m.world.store.live).outcome with
      | ok =>
        rw [Attempt.happening?, outcome] at amounts
        cases amounts
      | error fault =>
        rcases mutation.failed_cases coherent.live outcome with ⟨kept, _⟩ | ⟨_, slip⟩
        · cases (Attempt.happening?_of_kept outcome kept).symm.trans amounts
        · exact absurd slip (never _)
    · rw [Settings.attemptReplace_of_valid (Settings.valid_of_load loaded)] at amounts
      cases amounts
  · rfl

end Machine

end TrainingCollar
