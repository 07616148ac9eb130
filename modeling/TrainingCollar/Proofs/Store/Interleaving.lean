import TrainingCollar.Proofs.Store.Session
import TrainingCollar.Proofs.Store.StepEdits

/-! # The two sequences are independent

Whether a step can be added to a sequence or removed from it depends on this sequence and on the bounds
of strengths, and neither is changed by editing the other sequence. So calls that edit the two sequences
can be interleaved in any way: what each of them comes to is decided by the calls before it for the same
sequence.
-/

namespace TrainingCollar

/-- The sequence that a mutation edits, if it adds a step or removes one. -/
def Mutation.edits? : Mutation → Option Sequence
  | .add key _ | .remove key _ => (Settings.sequenceOf key).toOption
  | _ => none

@[simp] theorem Mutation.edits?_addTo (which : Sequence) (x : Value) :
    (Mutation.addTo which x).edits? = some which := by
  rw [addTo, edits?, Settings.sequenceOf_name]
  rfl

@[simp] theorem Mutation.edits?_removeFrom (which : Sequence) (position : Nat) :
    (Mutation.removeFrom which position).edits? = some which := by
  rw [removeFrom, edits?, Settings.sequenceOf_name]
  rfl

/-- What the steps of a sequence are after a mutation that edits it, with the bounds of strengths, and what
writing about the step comes to that was added or removed. -/
def Mutation.edited (which : Sequence) (bounds : Stimulus → Option (Value × Value))
    (steps : List Step) : Mutation → Except Fault (List Step × Except Fault Unit)
  | .add _ x => do
    let step ← Step.read x
    validateStep step (fun kind => .ok (bounds kind)) (Violation.label which.name steps.length)
    return (steps ++ [step], step.written)
  | .remove _ index => do
    let position ← Settings.positionOf which.name index steps.length
    return (steps.eraseIdx position, steps[position]?.elim (.ok ()) Step.written)
  | _ => .ok (steps, .ok ())

/-- How a mutation ends that edits a sequence. -/
def Mutation.ending (which : Sequence) (bounds : Stimulus → Option (Value × Value))
    (steps : List Step) (mutation : Mutation) : Except Fault Unit :=
  mutation.edited which bounds steps >>= Prod.snd

/-- The steps that a mutation leaves in its sequence, also if it fails. -/
def Mutation.leaves (which : Sequence) (bounds : Stimulus → Option (Value × Value))
    (steps : List Step) (mutation : Mutation) : List Step :=
  (mutation.edited which bounds steps).toOption.elim steps Prod.fst

/-- How calls end that edit one sequence after each other. -/
def outcomesIn (which : Sequence) (bounds : Stimulus → Option (Value × Value)) :
    List Step → List Mutation → List Outcome
  | _, [] => []
  | steps, mutation :: rest =>
    .of (mutation.ending which bounds steps) ::
      outcomesIn which bounds (mutation.leaves which bounds steps) rest

/-- The steps that calls leave in the sequence that they edit after each other. -/
def stepsAfter (which : Sequence) (bounds : Stimulus → Option (Value × Value)) (steps : List Step)
    (mutations : List Mutation) : List Step :=
  mutations.foldl (Mutation.leaves which bounds) steps

namespace Settings

variable {live : Settings} {which : Sequence} {steps : List Step} {mutation : Mutation}

theorem named_of_edits {key : Value} (edits : (sequenceOf key).toOption = some which) :
    sequenceOf key = .ok which := by
  cases named : sequenceOf key with
  | error fault =>
    rw [named] at edits
    cases edits
  | ok other =>
    rw [named] at edits
    exact congrArg _ (Option.some.inj edits)

/-- A mutation that edits a sequence comes to what it comes to for the steps of this sequence. -/
theorem attempt_of_edits (valid : live.Valid) (alone : live.sharing = .none)
    (holds : live.sequence which = stepsValue steps) (edits : mutation.edits? = some which) :
    (mutation.attempt live).outcome = mutation.ending which live.strengthBounds steps ∧
      (mutation.attempt live).live = live.set (.steps which)
        (stepsValue (mutation.leaves which live.strengthBounds steps)) := by
  have same : live.set (.steps which) (stepsValue steps) = live := by
    rw [← holds]
    cases which <;> rfl
  have allAccepted := valid.accepted_of_holds holds
  cases mutation with
  | add key x =>
    have named := named_of_edits edits
    rw [Mutation.attempt, Mutation.ending, Mutation.leaves, Mutation.edited]
    cases isRead : Step.read x with
    | error fault =>
      rw [attemptAdd_of_unread named isRead]
      exact ⟨rfl, same.symm⟩
    | ok step =>
      simp only [bind, Except.bind]
      cases checked : validateStep step (fun kind => .ok (live.strengthBounds kind))
          (Violation.label which.name steps.length) with
      | error fault =>
        rw [attemptAdd_of_refused named holds isRead (by rwa [List.length_map])]
        exact ⟨Attempt.outcome_rejected .., (Attempt.live_rejected ..).trans same.symm⟩
      | ok _ =>
        have accepted := validateStep_eq_ok_iff.mp checked
        obtain ⟨record, added⟩ := attemptAdd_of_holds alone holds named isRead accepted
        rw [added]
        exact ⟨Attempt.outcome_edited record accepted.shaped, Attempt.live_edited ..⟩
  | remove key index =>
    have named := named_of_edits edits
    rw [Mutation.attempt, Mutation.ending, Mutation.leaves, Mutation.edited]
    cases found : positionOf which.name index steps.length with
    | error fault =>
      rw [attemptRemove_of_misplaced named holds (by rwa [List.length_map])]
      exact ⟨rfl, same.symm⟩
    | ok position =>
      have inRange := lt_of_positionOf found
      obtain ⟨record, removed⟩ := attemptRemove_of_holds alone holds named inRange found
      have shaped := (allAccepted _ (List.getElem_mem inRange)).shaped
      simp only [removed, bind, Except.bind, pure, Except.pure, List.getElem?_eq_getElem inRange]
      exact ⟨Attempt.outcome_edited record shaped, Attempt.live_edited ..⟩
  | _ => cases edits

/-- The configuration with these steps in its sequences. -/
def withSequences (base : Settings) (content : Sequence → List Step) : Settings :=
  (base.set (.steps .corrections) (stepsValue (content .corrections))).set (.steps .affirmations)
    (stepsValue (content .affirmations))

section Sequences

variable (base : Settings) (content : Sequence → List Step)

theorem sequence_withSequences (which : Sequence) :
    (base.withSequences content).sequence which = stepsValue (content which) := by
  cases which <;> rfl

theorem strengthBounds_withSequences :
    (base.withSequences content).strengthBounds = base.strengthBounds := by
  rw [withSequences, strengthBounds_set_steps, strengthBounds_set_steps]

theorem set_withSequences (which : Sequence) (steps : List Step) :
    (base.withSequences content).set (.steps which) (stepsValue steps) =
      base.withSequences (Function.update content which steps) := by
  cases which <;> rfl

theorem withSequences_self {content : Sequence → List Step}
    (holds : ∀ which, base.sequence which = stepsValue (content which)) :
    base.withSequences content = base := by
  rw [withSequences, ← holds, ← holds]
  rfl

theorem sharing_withSequences : (base.withSequences content).sharing = base.sharing := by
  rw [withSequences, SettingsOf.sharing_set, SettingsOf.sharing_set]

variable {base content}

/-- How a call ends that edits a sequence, and what it leaves. -/
theorem attempt_edit (valid : (base.withSequences content).Valid) (alone : base.sharing = .none)
    (edits : mutation.edits? = some which) :
    (mutation.attempt (base.withSequences content)).outcome =
        mutation.ending which base.strengthBounds (content which) ∧
      (mutation.attempt (base.withSequences content)).live = base.withSequences
        (Function.update content which (mutation.leaves which base.strengthBounds (content which))) := by
  have stillAlone := (sharing_withSequences base content).trans alone
  obtain ⟨outcome, live⟩ :=
    attempt_of_edits valid stillAlone (sequence_withSequences base content which) edits
  rw [strengthBounds_withSequences] at outcome live
  exact ⟨outcome, live.trans (set_withSequences base content which _)⟩

end Sequences

end Settings

/-- The calls that edit a sequence. -/
def editsOf (which : Sequence) (mutations : List Mutation) : List Mutation :=
  mutations.filter (·.edits? == some which)

/-- The answers to calls that edit a sequence. -/
def answersOf (which : Sequence) (answers : List Answer) : List Answer :=
  answers.filter (·.mutation.edits? == some which)

section Parts

variable {which named : Sequence} {mutation : Mutation} (edits : mutation.edits? = some named)
include edits

theorem editsOf_cons_self (rest : List Mutation) :
    editsOf named (mutation :: rest) = mutation :: editsOf named rest := by
  simp [editsOf, edits]

theorem editsOf_cons_of_ne (other : which ≠ named) (rest : List Mutation) :
    editsOf which (mutation :: rest) = editsOf which rest := by
  simp [editsOf, edits, other.symm]

theorem answersOf_cons_self (outcome : Outcome) (live : Settings) (rest : List Answer) :
    answersOf named (⟨mutation, outcome, live⟩ :: rest) =
      ⟨mutation, outcome, live⟩ :: answersOf named rest := by
  simp [answersOf, edits]

theorem answersOf_cons_of_ne (other : which ≠ named) (outcome : Outcome) (live : Settings)
    (rest : List Answer) :
    answersOf which (⟨mutation, outcome, live⟩ :: rest) = answersOf which rest := by
  simp [answersOf, edits, other.symm]

end Parts

namespace Settings

variable {base : Settings} {content : Sequence → List Step}

/-- Calls that edit the sequences go on in each of them as if there were no other. -/
theorem replay_withSequences {mutations : List Mutation}
    (edit : ∀ mutation ∈ mutations, mutation.edits?.isSome) (alone : base.sharing = .none)
    (valid : (base.withSequences content).Valid) :
    (∀ which, (answersOf which ((base.withSequences content).replay mutations)).map Answer.outcome =
        outcomesIn which base.strengthBounds (content which) (editsOf which mutations)) ∧
      (base.withSequences content).afterAll mutations = base.withSequences fun which =>
        stepsAfter which base.strengthBounds (content which) (editsOf which mutations) := by
  induction mutations generalizing content with
  | nil => exact ⟨fun _ => rfl, rfl⟩
  | cons mutation rest ih =>
    obtain ⟨isEdit, others⟩ := List.forall_mem_cons.mp edit
    obtain ⟨named, edits⟩ := Option.isSome_iff_exists.mp isEdit
    obtain ⟨outcome, live⟩ := attempt_edit valid alone edits
    have guardedAfter := (mutation.attempt_clean valid.guarded).guarded
    rw [live] at guardedAfter
    have validAfter := guardedAfter.valid (by rw [sharing_withSequences, alone]; rfl)
    obtain ⟨outcomes, after⟩ := ih others validAfter
    constructor
    · intro which
      have later := outcomes which
      rw [replay, live, outcome]
      by_cases same : which = named
      · subst same
        rw [Function.update_self] at later
        rw [answersOf_cons_self edits, editsOf_cons_self edits]
        exact congrArg _ later
      · rw [Function.update_of_ne same] at later
        rw [answersOf_cons_of_ne edits same, editsOf_cons_of_ne edits same]
        exact later
    · have unfolded : (base.withSequences content).afterAll (mutation :: rest) =
          (mutation.attempt (base.withSequences content)).live.afterAll rest := rfl
      rw [unfolded, live, after]
      congr 1
      funext which
      by_cases same : which = named
      · subst same
        rw [Function.update_self, editsOf_cons_self edits]
        rfl
      · rw [Function.update_of_ne same, editsOf_cons_of_ne edits same]

end Settings

/-- The calls that edit the sequences, in an order that keeps that of the calls for each of them. -/
structure Interleaves (parts : Sequence → List Mutation) (calls : List Mutation) : Prop where
  edit : ∀ call ∈ calls, call.edits?.isSome
  kept : ∀ which, editsOf which calls = parts which

variable {κ μ ν : Type}

namespace Machine

variable {earlier behave : κ → Settings → Script κ μ ν} {first m : Machine κ μ ν}

/-- Where all steps and configurations are built, and callbacks only watch: the calls that edit one
sequence end in the same way however they are interleaved with calls that edit the other, and the same
configuration is left. More than that, their outcomes and the steps that they leave depend on the calls
for the same sequence only. If callbacks come to an end, the calls can be made in any of these orders. -/
theorem Course.sequences_are_independent {initial : Value} (fresh : first.Fresh initial)
    (genuine : initial.Genuine) (course : Course earlier Genuine first m)
    (watching : ∀ c snapshot, (behave c snapshot).Watches) :
    (∃ (outcomes : Sequence → List Mutation → List Outcome)
        (left : Sequence → List Mutation → List Step),
      ∀ {parts : Sequence → List Mutation} {answers : List Answer} {last : World κ μ ν},
        Session behave m.world answers last → Interleaves parts (answers.map Answer.mutation) →
        (∀ which, (answersOf which answers).map Answer.outcome = outcomes which (parts which)) ∧
          last.store.live = m.world.store.live.withSequences fun which => left which (parts which)) ∧
    (Returns behave → ∀ {parts : Sequence → List Mutation} {calls : List Mutation},
      Interleaves parts calls →
        ∃ answers last, Session behave m.world answers last ∧ answers.map Answer.mutation = calls) := by
  refine ⟨?_, fun returns _ calls _ => exists_session watching returns m.world calls⟩
  have canonical := course.canonical fresh genuine fun _ permitted => permitted
  have valid : m.world.store.live.Valid :=
    (course.reachable fresh.reachable).coherent.live.valid canonical.isApart
  choose content holds _ using canonical.steps
  have base := m.world.store.live.withSequences_self holds
  refine ⟨fun which calls => outcomesIn which m.world.store.live.strengthBounds (content which) calls,
    fun which calls => stepsAfter which m.world.store.live.strengthBounds (content which) calls, ?_⟩
  intro parts answers last session interleaves
  obtain ⟨replayed, left⟩ := session.answers_eq watching
  rw [← base] at valid
  obtain ⟨outcomes, after⟩ := Settings.replay_withSequences interleaves.edit canonical.alone valid
  rw [base] at outcomes after
  rw [← replayed] at outcomes
  simp only [interleaves.kept] at outcomes after
  exact ⟨outcomes, left.trans after⟩

open Onlooker in
/-- With the nosy callback listening, a beep is added to each sequence, the one for corrections is
removed, and removed once more, which fails. It makes no difference when the affirmation is added. -/
theorem sequences_are_independent_nosy :
    let beep : Value := .map [(.text "type", .text "collar_beep")]
    let world := (arrival.run Onlooker.behave 8).world
    let adds (which : Sequence) : Mutation := .addTo which beep
    let removes : Mutation := .removeFrom .corrections 0
    ∃ answers others last otherLast,
      Session Onlooker.behave world answers last ∧ Session Onlooker.behave world others otherLast ∧
      answers.map Answer.mutation = [adds .corrections, removes, removes, adds .affirmations] ∧
      others.map Answer.mutation = [adds .affirmations, adds .corrections, removes, removes] ∧
      (answersOf .corrections answers).map Answer.outcome =
        (answersOf .corrections others).map Answer.outcome ∧
      last.store.live = otherLast.store.live ∧
      last.store.live.stepCount .corrections = 0 ∧ last.store.live.stepCount .affirmations = 1 := by
  intro beep world adds removes
  let parts (which : Sequence) : List Mutation :=
    editsOf which [adds .corrections, removes, removes, adds .affirmations]
  have interleaves : Interleaves parts [adds .corrections, removes, removes, adds .affirmations] :=
    ⟨by simp [adds, removes], fun _ => rfl⟩
  have otherwise : Interleaves parts [adds .affirmations, adds .corrections, removes, removes] :=
    ⟨by simp [adds, removes], fun which => by cases which <;> simp [editsOf, adds, removes, parts]⟩
  have fresh : Fresh .null arrival := .of Store.start_null _ none () _
  have course : Course Onlooker.behave Genuine arrival (arrival.run Onlooker.behave 8) :=
    .run fun k below mutation tries => by
      have quiet : ∀ k < 8, (arrival.run Onlooker.behave k).tried?.isNone = true := by decide +kernel
      rw [Option.isNone_iff_eq_none.mp (quiet k below)] at tries
      cases tries
  obtain ⟨⟨outcomes, left, determined⟩, exist⟩ :=
    Course.sequences_are_independent fresh trivial course behave_watches
  obtain ⟨answers, last, session, called⟩ := exist behave_returns interleaves
  obtain ⟨others, otherLast, otherSession, otherCalled⟩ := exist behave_returns otherwise
  obtain ⟨same, live⟩ := determined session (called ▸ interleaves)
  obtain ⟨otherSame, otherLive⟩ := determined otherSession (otherCalled ▸ otherwise)
  have counts : last.store.live.stepCount .corrections = 0 ∧
      last.store.live.stepCount .affirmations = 1 := by
    rw [(session.answers_eq behave_watches).2, called]
    decide +kernel
  exact ⟨answers, others, last, otherLast, session, otherSession, called, otherCalled,
    (same .corrections).trans (otherSame .corrections).symm, live.trans otherLive.symm, counts⟩

end Machine

end TrainingCollar
