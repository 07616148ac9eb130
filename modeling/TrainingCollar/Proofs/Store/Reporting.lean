import TrainingCollar.Proofs.Store.Documented

/-! # Reports of mutations

The store reports mutations in the log, with a record of information when one is accepted and with a
warning when one is refused. Reports are told apart from all other records here, and `World.Tells` says
which of them a stretch of a run adds to the trace. Every step adds what its own attempt reports and
nothing else, so what is found in the trace of a run is one report after the other.

Not every refusal is reported. A step that cannot be read is refused before the check whose failures are
written down, and so is a key that names no sequence; removals leave no warning at all. And an edit that
slips is not reported either, since the report is what fails.
-/

namespace TrainingCollar

variable {κ μ ν : Type}

/-- What the store says about mutations: its records of information and its warnings. -/
def Record.isReport (r : Record) : Bool :=
  r.source == .store && (r.level == .info || r.level == .warning)

/-- What an attempt reports. -/
def Attempt.reports (a : Attempt) : List Record := a.records.filter Record.isReport

/-- The report that an event is. -/
def Event.report? : Event κ ν → Option Record
  | .logged r => Option.guard Record.isReport r
  | _ => none

/-- Whether the mutation comes as far as the check whose failures are reported. -/
def Mutation.isChecked (live : Settings) : Mutation → Bool
  | update .. | replace _ => true
  | add key step => (live.prepareAdd key step).isOk
  | remove .. => false

/-! ## What attempts report -/

/-- What an attempt reports, given whether its failures are reported: success with one record of
information, a violation with one warning or not at all, and a missing position not at all. -/
structure Attempt.Reported (checked : Bool) (a : Attempt) : Prop where
  accepted : a.outcome = .ok () → ∃ message, a.reports = [⟨.store, .info, message⟩]
  refused : ∀ violation, a.outcome = .error (.invalid violation) →
    if checked then ∃ message, a.reports = [⟨.store, .warning, message⟩] else a.reports = []
  misplaced : ∀ cause, a.outcome = .error (.badIndex cause) → a.reports = []

/-- Faults of values that cannot be taken for changes at all. -/
def Fault.IsUnfit (fault : Fault) : Prop := fault = .wrongKind ∨ fault = .badValue

namespace Attempt.Reported

variable {live changed : Settings}

/-- What fails before it is checked is not reported. -/
theorem failed (fault : Fault) : Reported false (.failed live fault) where
  accepted := nofun
  refused _ _ := rfl
  misplaced _ _ := rfl

/-- Neither is a fault of another kind. -/
theorem failed_otherwise {fault : Fault} (other : ∀ violation, fault ≠ .invalid violation)
    (checked : Bool) : Reported checked (.failed live fault) where
  accepted := nofun
  refused violation isFault := by
    cases isFault
    exact absurd rfl (other violation)
  misplaced _ _ := rfl

theorem rejected (warning : Fault → String) (fault : Fault) :
    Reported true (.rejected live warning fault) := by
  cases fault with
  | invalid violation => exact ⟨nofun, fun _ _ => ⟨_, rfl⟩, nofun⟩
  | _ => exact failed_otherwise (by nofun) true

theorem passed (checked : Bool) (message : String) :
    Reported checked (.accepted [.passed, ⟨.store, .info, message⟩] changed) :=
  ⟨fun _ => ⟨message, rfl⟩, nofun, nofun⟩

theorem edited (checked : Bool) (record : String → String) {text : Except Fault String}
    (written : ∃ brief, text = .ok brief) : Reported checked (.edited changed record text) := by
  obtain ⟨brief, rfl⟩ := written
  exact ⟨fun _ => ⟨record brief, rfl⟩, nofun, nofun⟩

end Attempt.Reported

theorem Fault.IsUnfit.ne_invalid {fault : Fault} (unfit : fault.IsUnfit) (violation : Violation) :
    fault ≠ .invalid violation := by
  rcases unfit with rfl | rfl <;> nofun

theorem failsOnly_pairOf (item : Value) : FailsOnly Fault.IsUnfit (pairOf item) := by
  unfold pairOf
  split
  · exact .error (.inl rfl)
  · exact .ite (.ok _) (.error (.inl rfl))
  · exact .error (.inr rfl)

theorem failsOnly_pairsOf (items : List Value) : FailsOnly Fault.IsUnfit (pairsOf items) := by
  induction items with
  | nil => exact .ok []
  | cons item rest ih =>
    apply FailsOnly.bind (failsOnly_pairOf item)
    intro pair _
    apply FailsOnly.bind ih
    intro pairs _
    exact .pure _

theorem failsOnly_entriesOf (changes : Value) : FailsOnly Fault.IsUnfit (entriesOf changes) := by
  unfold entriesOf
  split
  · exact .ok []
  · split
    · exact .ok _
    · next items _ _ =>
      apply FailsOnly.bind (failsOnly_pairsOf items)
      intro pairs _
      exact .pure _
    · exact .error (.inl rfl)

namespace Settings

variable (live : Settings)

theorem attemptUpdate_reported (changes : Value) (fields : List (String × Value)) :
    (live.attemptUpdate changes fields).Reported true := by
  unfold attemptUpdate
  split
  · next fault unfit =>
    exact .failed_otherwise ((failsOnly_entriesOf changes).allows fault unfit).ne_invalid true
  · dsimp only
    split
    · exact .passed true _
    · split
      · exact .rejected _ _
      · exact .failed_otherwise (by nofun) true

theorem attemptReplace_reported (replacement : Value) :
    (live.attemptReplace replacement).Reported true := by
  unfold attemptReplace
  split
  · split
    · exact .passed true _
    · exact .rejected _ _
  · exact .failed_otherwise (by nofun) true

theorem attemptAdd_reported (key step : Value) :
    (live.attemptAdd key step).Reported (live.prepareAdd key step).isOk := by
  unfold attemptAdd
  cases live.prepareAdd key step with
  | error fault => exact .failed fault
  | ok prepared =>
    obtain ⟨which, step, size⟩ := prepared
    dsimp only
    split
    · exact .rejected _ _
    · next passed =>
      cases edit : live.withSteps which (.append step) with
      | error fault =>
        -- A sequence that is no list cannot be edited, which is no violation.
        have other : fault = .noPart := by
          unfold withSteps at edit
          split at edit <;> cases edit
          rfl
        exact .failed_otherwise (fun _ => other ▸ nofun) _
      | ok changed =>
        dsimp only
        rcases (validateStep_eq_ok_iff.mp passed).shaped.brief with ⟨written, _⟩ | ⟨unwritten, _⟩
        · exact .edited _ _ written
        · rw [unwritten]
          exact .failed_otherwise (by nofun) _

theorem attemptRemove_reported (key index : Value) :
    (live.attemptRemove key index).Reported false := by
  unfold attemptRemove
  split
  · exact .failed _
  · next removed _ =>
    split
    · exact .failed _
    · cases written : stepOf removed >>= Step.brief with
      | error fault => exact .failed fault
      | ok brief => exact .edited _ _ ⟨brief, rfl⟩

end Settings

/-- An integer that can be shown and names no position is out of range. -/
theorem Settings.positionOf_outOfRange (name : String) {n : Int} {size : Nat}
    (outside : ¬(0 ≤ n ∧ n < size)) (fits : Value.fits n = true) :
    positionOf name (.int n) size = .error (.badIndex (.outOfRange name n size)) :=
  (if_neg outside).trans (if_pos fits)

theorem Mutation.attempt_reported (live : Settings) (mutation : Mutation) :
    (mutation.attempt live).Reported (mutation.isChecked live) := by
  cases mutation with
  | update changes fields => exact live.attemptUpdate_reported changes fields
  | replace settings => exact live.attemptReplace_reported settings
  | add key step => exact live.attemptAdd_reported key step
  | remove key index => exact live.attemptRemove_reported key index

/-! ## What steps report -/

theorem Settings.record_of_save {s : Settings} {files after : FileTree} {path : Path} {record : Record}
    (saved : s.save files path = (after, .ok record)) : record = savedRecord path := by
  unfold Settings.save at saved
  repeat' split at saved
  all_goals cases saved
  rfl

/-- A configuration file that is loaded is written about, but not by the store. -/
theorem Settings.filter_isReport_load (files : FileTree) (file : Path) :
    (Settings.load files file).records.filter Record.isReport = [] := by
  unfold Settings.load
  split <;> rfl

namespace World

variable {w v u : World κ μ ν} {reports more : List Record}

/-- One world goes on from another with events that report just this. -/
def Tells (w : World κ μ ν) (reports : List Record) (v : World κ μ ν) : Prop :=
  ∃ events, v.trace = w.trace ++ events ∧ events.filterMap Event.report? = reports

namespace Tells

theorem silent (same : v.trace = w.trace) : w.Tells [] v :=
  ⟨[], same.trans (List.append_nil _).symm, rfl⟩

theorem trans (first : w.Tells reports v) (rest : v.Tells more u) : w.Tells (reports ++ more) u := by
  obtain ⟨events, isFirst, rfl⟩ := first
  obtain ⟨others, isRest, rfl⟩ := rest
  exact ⟨events ++ others, by rw [isRest, isFirst, List.append_assoc], List.filterMap_append⟩

/-- What is silent adds nothing to the reports before it. -/
theorem hush (first : w.Tells reports v) (rest : v.Tells [] u) : w.Tells reports u := by
  have both := first.trans rest
  rwa [List.append_nil] at both

theorem log (w : World κ μ ν) (records : List Record) :
    w.Tells (records.filter Record.isReport) (w.log records) := by
  refine ⟨records.map .logged, rfl, ?_⟩
  rw [List.filterMap_map]
  exact congrFun List.filterMap_eq_filter records

theorem happen (w : World κ μ ν) {event : Event κ ν} (noReport : event.report? = none) :
    w.Tells [] (w.happen event) :=
  ⟨[event], rfl, List.filterMap_cons_none noReport⟩

theorem save (w : World κ μ ν) (file : Path) (settings : Settings) :
    w.Tells [] (w.save file settings).1 := by
  unfold World.save
  split
  · next files record saved =>
    obtain rfl : record = Settings.savedRecord file := Settings.record_of_save saved
    exact log w [Settings.savedRecord file]
  · exact silent rfl

theorem subscribe (w : World κ μ ν) (listener : Listener κ) : w.Tells [] (w.subscribe listener) := by
  let store := w.store.register listener
  have added : w.Tells [] ({ w with store := store }.log [store.addedRecord w.store.nextHandle]) :=
    log w [store.addedRecord w.store.nextHandle]
  exact added.hush (happen _ rfl)

theorem unsubscribe (w : World κ μ ν) (handle : Nat) : w.Tells [] (w.unsubscribe handle) := by
  unfold World.unsubscribe
  split
  · exact log w [(w.store.cancel handle).removedRecord handle]
  · exact silent rfl

end Tells

/-- The attempt that loading a settings file leads to. -/
def loading? (w : World κ μ ν) (file : Path) : Option Attempt :=
  match w.files.exists? file, (Settings.load w.files file).outcome with
  | .ok true, .ok settings => some (w.store.live.attemptReplace (.settings settings))
  | _, _ => none

end World

namespace Machine

variable {m : Machine κ μ ν} {behave : κ → Settings → Script κ μ ν}

/-- The attempt to change the configuration that the next step makes. -/
def attempt? (m : Machine κ μ ν) : Option Attempt :=
  match m.control with
  | .run (.mutate mutation _) => some (mutation.attempt m.world.store.live)
  | .run (.reload _) => m.world.persistence.bind fun p => m.world.loading? p.file
  | _ => none

/-- The attempts that are made in so many steps of a run. -/
def attempts (behave : κ → Settings → Script κ μ ν) : Nat → Machine κ μ ν → List Attempt
  | 0, _ => []
  | steps + 1, m => m.attempt?.toList ++ attempts behave steps (m.step behave)

theorem settle_tells (attempt : Attempt) (answer : Option Fault → Script κ μ ν) :
    m.world.Tells attempt.reports (m.settle attempt answer).world := by
  unfold settle
  dsimp only
  split
  · exact .log m.world attempt.records
  · split <;> exact .log m.world attempt.records

theorem reload_tells (file : Path) (answer : Option Fault → Script κ μ ν) :
    m.world.Tells ((m.world.loading? file).toList.flatMap Attempt.reports)
      (m.reload file answer).world := by
  unfold reload World.loading?
  cases m.world.files.exists? file with
  | error fault => exact .silent rfl
  | ok exists? =>
    cases exists? with
    | false =>
      let missing : Record := ⟨.persistence, .info,
        "No settings file at " ++ file.text ++ ", writing current settings"⟩
      have logged : m.world.Tells [] (m.world.log [missing]) := .log m.world [missing]
      exact logged.hush (.save _ file m.world.store.live)
    | true =>
      have logged : m.world.Tells [] (m.world.log (Settings.load m.world.files file).records) := by
        have told := World.Tells.log m.world (Settings.load m.world.files file).records
        rwa [Settings.filter_isReport_load] at told
      dsimp only
      cases (Settings.load m.world.files file).outcome with
      | error fault => exact logged
      | ok settings =>
        let attempt := m.world.store.live.attemptReplace (.settings settings)
        have settled := settle_tells
          (m := { m with world := m.world.log (Settings.load m.world.files file).records }) attempt answer
        have single : [attempt].flatMap Attempt.reports = attempt.reports := List.flatMap_singleton ..
        exact single ▸ logged.trans settled

theorem enable_tells (p : Persistence) (answer : Option Fault → Script κ μ ν) :
    m.world.Tells [] (m.enable p answer).world := by
  unfold enable
  cases p.writer with
  | some handle => exact .silent rfl
  | none => exact .subscribe m.world (.writer p.file)

theorem disable_tells (p : Persistence) (answer : Option Fault → Script κ μ ν) :
    m.world.Tells [] (m.disable p answer).world := by
  unfold disable
  cases p.writer with
  | none => exact .silent rfl
  | some handle => exact .unsubscribe m.world handle

theorem persist_tells {reports : List Record}
    {command : Persistence → (Option Fault → Script κ μ ν) → Machine κ μ ν}
    (answer : Option Fault → Script κ μ ν) (absent : m.world.persistence = none → reports = [])
    (tells : ∀ p, m.world.persistence = some p → m.world.Tells reports (command p answer).world) :
    m.world.Tells reports (m.persist command answer).world := by
  unfold persist
  split
  · next p persists => exact tells p persists
  · next nothing => exact absent nothing ▸ .silent rfl

theorem edit_tells (change : FileTree → Except Fault FileTree)
    (answer : Option Fault → Script κ μ ν) : m.world.Tells [] (m.edit change answer).world := by
  unfold edit
  split <;> exact .silent rfl

/-- Faults of listeners are no reports. -/
theorem log_failed_tells (world : World κ μ ν) (handle : Nat) (fault : Option Fault) :
    world.Tells [] (world.log (fault.toList.map (failedRecord handle))) := by
  cases fault with
  | none => exact .log world []
  | some fault => exact .log world [failedRecord handle fault]

theorem close_tells (fault : Option Fault) : m.world.Tells [] (m.close fault).world := by
  unfold close
  dsimp only
  split
  · exact .silent rfl
  · exact log_failed_tells ..
  · exact log_failed_tells ..

theorem call_tells (snapshot : Settings) (subscription : Subscription κ)
    (waiting : List (Subscription κ)) (next : Script κ μ ν) :
    m.world.Tells [] (m.call behave snapshot subscription waiting next).world := by
  unfold call
  split
  · have called : m.world.Tells []
        (m.world.happen (.called subscription.handle subscription.listener snapshot)) :=
      .happen m.world rfl
    split
    · exact called
    · next file _ => exact (called.hush (.save _ file snapshot)).hush (log_failed_tells ..)
  · exact .silent rfl

theorem obey_tells (script : Script κ μ ν) :
    m.world.Tells ((attempt? { m with control := .run script }).toList.flatMap Attempt.reports)
      (m.obey behave script).world := by
  cases script with
  | done => exact close_tells none
  | fail fault => exact close_tells (some fault)
  | mutate mutation answer =>
    let attempt := mutation.attempt m.world.store.live
    have single : [attempt].flatMap Attempt.reports = attempt.reports := List.flatMap_singleton ..
    exact single ▸ settle_tells attempt answer
  | subscribe callback answer => exact .subscribe m.world (.callback callback)
  | unsubscribe handle rest => exact .unsubscribe m.world handle
  | reload answer =>
    refine persist_tells answer (fun nothing => ?_) fun p persists => ?_
    · rw [attempt?, nothing]
      rfl
    · rw [attempt?, persists]
      exact reload_tells p.file answer
  | enable answer => exact persist_tells answer (fun _ => rfl) fun p _ => enable_tells p answer
  | disable answer => exact persist_tells answer (fun _ => rfl) fun p _ => disable_tells p answer
  | edit change answer => exact edit_tells change answer
  | note text rest => exact .happen m.world rfl
  | _ => exact .silent rfl

/-- A step reports what its attempt does. -/
theorem step_tells (behave : κ → Settings → Script κ μ ν) (m : Machine κ μ ν) :
    m.world.Tells (m.attempt?.toList.flatMap Attempt.reports) (m.step behave).world := by
  obtain ⟨world, stack, control⟩ := m
  cases control with
  | run script => exact obey_tells (m := ⟨world, stack, .run script⟩) script
  | deliver snapshot waiting rest =>
    cases waiting with
    | nil => exact .silent rfl
    | cons subscription waiting => exact call_tells snapshot subscription waiting rest
  | drain rest =>
    simp only [step]
    split <;> exact .silent rfl
  | ended outcome => exact .silent rfl

/-- What is found of reports in the trace of a run are those of its attempts, in their order. -/
theorem run_tells (behave : κ → Settings → Script κ μ ν) (m : Machine κ μ ν) (steps : Nat) :
    m.world.Tells ((m.attempts behave steps).flatMap Attempt.reports) (m.run behave steps).world := by
  induction steps generalizing m with
  | zero => exact .silent rfl
  | succ steps ih =>
    rw [run_succ, attempts, List.flatMap_append]
    exact (step_tells behave m).trans (ih (m.step behave))

/-- A mutation that succeeds is reported by one record of information, and one that is refused by one
warning or not at all; nothing else about it is ever reported. The record comes before everything
that happens afterwards, and what is reported then is what later attempts report. -/
theorem mutations_are_reported (behave : κ → Settings → Script κ μ ν) {mutation : Mutation}
    {answer : Option Fault → Script κ μ ν} (calling : m.control = .run (.mutate mutation answer)) :
    let attempt := mutation.attempt m.world.store.live
    attempt.Reported (mutation.isChecked m.world.store.live) ∧
      ∀ steps, ∃ later,
        ((m.step behave).run behave steps).world.trace =
          m.world.trace ++ attempt.records.map .logged ++ later ∧
        later.filterMap Event.report? =
          ((m.step behave).attempts behave steps).flatMap Attempt.reports := by
  intro attempt
  have now : (m.step behave).world.trace = m.world.trace ++ attempt.records.map .logged := by
    simp only [step, calling, obey, settle]
    split
    · rfl
    · split <;> rfl
  refine ⟨mutation.attempt_reported _, fun steps => ?_⟩
  obtain ⟨later, trace, reports⟩ := run_tells behave (m.step behave) steps
  exact ⟨later, by rw [trace, now], reports⟩

/-- In the run of the eager callback three replacements are reported, and the removal is not. -/
theorem mutations_are_reported_session :
    ((Hearer.session 30).world.trace.filterMap Event.report?).map (fun r => (r.level, r.message)) =
        [(.info, "Settings replaced"), (.info, "Settings replaced"), (.info, "Settings replaced")] ∧
      ∃ later, (Hearer.session 30).world.trace = Hearer.opened.world.trace ++
        [.logged .passed, .logged ⟨.store, .info, "Settings replaced"⟩] ++ later := by
  refine ⟨by decide +kernel, ?_⟩
  have calling : (Hearer.session 0).control =
      .run (.mutate (.replace (.settings (Settings.ofMicrophone 28))) fun _ => .done) := rfl
  obtain ⟨later, trace, _⟩ := (mutations_are_reported Hearer.behave calling).2 29
  have valid : Settings.Valid (Settings.ofMicrophone 28) := by decide +kernel
  have runs : ((Hearer.session 0).step Hearer.behave).run Hearer.behave 29 = Hearer.session 30 :=
    (run_succ Hearer.behave 29).symm
  rw [Mutation.attempt, Settings.attemptReplace_of_valid valid, runs] at trace
  exact ⟨later, trace⟩

/-- On a new store, a step with a field that steps do not have is refused with a violation, and so is
the removal of a step that is not there, with the fault of its position. Neither leaves a report. -/
theorem unreported_refusals :
    let step : Value := .map [(.text "type", .text "collar_beep"), (.text "colour", .text "red")]
    let adding := (Mutation.addTo .corrections step).attempt Settings.defaults
    let removing := (Mutation.removeFrom .corrections 0).attempt Settings.defaults
    (∃ violation, adding.outcome = .error (.invalid violation)) ∧ adding.records = [] ∧
      (∃ cause, removing.outcome = .error (.badIndex cause)) ∧ removing.records = [] := by
  intro step adding removing
  have unread : ∃ violation, Step.read step = .error (.invalid violation) := ⟨_, rfl⟩
  obtain ⟨violation, unread⟩ := unread
  have adds : adding = .failed .defaults (.invalid violation) :=
    Settings.attemptAdd_of_unread (Settings.sequenceOf_name .corrections) unread
  have fits : Value.fits 0 = true := by decide +kernel
  have misplaced : Settings.positionOf "correction_steps" (.int 0) 0 = _ :=
    Settings.positionOf_outOfRange _ (by decide) fits
  have noSteps : Settings.defaults.sequence .corrections = .list [] := rfl
  have removes : removing = .failed .defaults _ :=
    Settings.attemptRemove_of_misplaced (Settings.sequenceOf_name .corrections) noSteps misplaced
  rw [adds, removes]
  exact ⟨⟨violation, rfl⟩, rfl, ⟨_, rfl⟩, rfl⟩

end Machine

end TrainingCollar
