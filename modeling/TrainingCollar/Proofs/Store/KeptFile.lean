import TrainingCollar.Proofs.SettingsFile
import TrainingCollar.Proofs.Store.Filing
import TrainingCollar.Proofs.Store.Provenance

/-! # The settings file follows the store

While the settings file is kept up to date its writer is a subscriber like any other, and hears of
every configuration late if others answer the same one with mutations. The invariant is that the file
holds the document of the configuration in force whenever nothing is owed to the writer. It starts to
hold with a configuration that is accepted while the writer exists, since the configuration is owed to
it then.
-/

namespace TrainingCollar

variable {κ μ ν : Type}

namespace Delivery

variable {d middle : Delivery κ} {happening : Option (Happening κ)} {s : Subscription κ}

/-- A subscription that exists or is still waited for. -/
def Listed (d : Delivery κ) (s : Subscription κ) : Prop :=
  s ∈ d.store.subscriptions ∨ ∃ snapshot waiting, .of snapshot waiting ∈ d.turns ∧ s ∈ waiting

theorem Orderly.lt_of_listed (orderly : d.Orderly) (listed : d.Listed s) :
    s.handle < d.store.nextHandle := by
  rcases listed with exists_ | ⟨snapshot, waiting, turn, waits⟩
  · exact orderly.subscriptions.2 s exists_
  · exact (orderly.turns _ turn).2 s waits

theorem listed_next_iff {store : Store κ} {turns : List (Turn κ)} :
    Listed ⟨store, .next :: turns⟩ s ↔ Listed ⟨store, turns⟩ s := by
  simp [Listed]

theorem listed_of_iff {store : Store κ} {turns : List (Turn κ)} {snapshot : Settings}
    {waiting : List (Subscription κ)} :
    Listed ⟨store, .of snapshot waiting :: turns⟩ s ↔ s ∈ waiting ∨ Listed ⟨store, turns⟩ s := by
  constructor
  · rintro (member | ⟨other, others, turn, waits⟩)
    · exact .inr (.inl member)
    · rcases List.mem_cons.mp turn with same | later
      · cases same
        exact .inl waits
      · exact .inr (.inr ⟨other, others, later, waits⟩)
  · rintro (waits | member | ⟨other, others, later, waits⟩)
    · exact .inr ⟨snapshot, waiting, List.mem_cons_self, waits⟩
    · exact .inl member
    · exact .inr ⟨other, others, List.mem_cons_of_mem _ later, waits⟩

/-- A step adds no subscription but the one it makes. -/
theorem Step.listed (step : Step d happening middle) (listed : middle.Listed s) :
    d.Listed s ∨ s.handle = d.store.nextHandle ∧
      ∃ call, happening = some (.subscribed call) ∧ call.subscription = s := by
  cases step with
  | quiet | queued | slipped => exact .inl listed
  | subscribed =>
    rcases listed with member | waits
    · rcases List.mem_append.mp member with before | new
      · exact .inl (.inl before)
      · obtain rfl := List.mem_singleton.mp new
        exact .inr ⟨rfl, _, rfl, rfl⟩
    · exact .inl (.inr waits)
  | unsubscribed =>
    rcases listed with member | waits
    · exact .inl (.inl (List.mem_filter.mp member).1)
    · exact .inl (.inr waits)
  | opened => exact .inl (listed_next_iff.mp listed)
  | finished => exact .inl (listed_of_iff.mpr (.inr (listed_next_iff.mp listed)))
  | begun =>
    rcases listed_of_iff.mp listed with member | others
    · exact .inl (.inl member)
    · exact .inl (listed_next_iff.mpr others)
  | handed | skipped =>
    rcases listed_of_iff.mp listed with waits | others
    · exact .inl (listed_of_iff.mpr (.inl (List.mem_cons_of_mem _ waits)))
    · exact .inl (listed_of_iff.mpr (.inr others))
  | rested => exact .inl (listed_next_iff.mpr listed)
  | aborted =>
    rcases listed with member | ⟨snapshot, waiting, turn, waits⟩
    · left
      left
      split at member <;> exact member
    · cases turn

/-- Who is served waited for it, and still exists. -/
theorem Step.served {call : Call κ} (step : Step d (some (.handed call)) middle) :
    d.Listed call.subscription ∧ d.store.isActive call.subscription.handle = true := by
  cases step with
  | handed serving => exact ⟨.inr ⟨_, _, List.mem_cons_self, List.mem_cons_self⟩, serving⟩

/-- If a step leaves a subscription nothing to hear without calling it, there was nothing before. -/
theorem Orderly.owed_eq_nil {handle : Nat} (orderly : d.Orderly) (step : Step d happening middle)
    (active : d.store.isActive handle = true) (unaborted : happening ≠ some .aborted)
    (unslipped : ∀ settings, happening ≠ some (.slipped settings))
    (unheard : heardBy handle (handedIn happening.toList) = [])
    (nothing : middle.owed handle = []) :
    d.owed handle = [] ∧ middle.store.live = d.store.live := by
  have account := orderly.owed_step step active unaborted
  rw [unheard, nothing] at account
  obtain ⟨owed, accepted⟩ := List.append_eq_nil_iff.mp account.symm
  refine ⟨owed, ?_⟩
  rw [step.live_eq]
  cases happening with
  | none => rfl
  | some happening =>
    cases happening with
    | accepted => cases accepted
    | slipped settings => exact absurd rfl (unslipped settings)
    | _ => rfl

theorem heardBy_handed {handle : Nat}
    (others : ∀ call, happening = some (.handed call) → call.subscription.handle ≠ handle) :
    heardBy handle (handedIn happening.toList) = [] := by
  cases happening with
  | none => rfl
  | some happening =>
    cases happening with
    | handed call => exact heardBy_cons_of_ne (others call rfl) ..
    | _ => rfl

/-- The last call of a hand-out after which nothing is pending pays all that is owed. -/
theorem Orderly.owed_of_handed {call : Call κ} (orderly : d.Orderly)
    (step : Step d (some (.handed call)) middle) (empty : middle.store.pending = []) :
    d.owed call.subscription.handle = [call.snapshot] := by
  cases step with
  | @handed store turns snapshot subscription waiting serving =>
    have order : InOrder store.nextHandle (subscription :: waiting) :=
      orderly.turns _ List.mem_cons_self
    have absent : ∀ call ∈ waiting.map (⟨·, snapshot⟩),
        (call : Call κ).subscription.handle ≠ subscription.handle :=
      List.forall_mem_map.mpr fun s among => Nat.ne_of_gt ((List.pairwise_cons.mp order.1).1 s among)
    have empty : store.pending = [] := empty
    simp [owed, upcoming, orderly.tail_eq_nil, heardBy_cons_self, heardBy_eq_nil absent, empty]

end Delivery

/-- Reads the settings file, and fails if that fails. -/
def Script.readFile : Script κ μ ν := .reload fun fault => fault.elim .done .fail

namespace Machine

variable {behave : κ → Settings → Script κ μ ν} {first accepting m : Machine κ μ ν} {file : Path}
  {handle : Nat}

/-- The next step does not abort the run, tries nothing but genuine values, saves what it saves, and
does not touch the settings file otherwise. -/
structure Undisturbed (file : Path) (m : Machine κ μ ν) : Prop where
  goesOn : m.aborts = false
  genuine : m.Genuine
  saves : ∀ place settings, m.filing = .saved place settings →
    ∃ record, (settings.save m.world.files place).2 = .ok record
  untouched : ∀ change files, m.filing = .edited change → change m.world.files = .ok files →
    files.lookup? file = m.world.files.lookup? file

/-- Where everything is genuine no edit slips. -/
theorem Undisturbed.smooth (undisturbed : m.Undisturbed file) (coherent : m.Coherent)
    (canonical : m.world.store.live.Canonical) : m.Smooth :=
  ⟨undisturbed.goesOn, undisturbed.genuine.slips coherent canonical⟩

/-- A subscription keeps the settings file up to date. -/
structure Keeps (file : Path) (handle : Nat) (m : Machine κ μ ν) : Prop where
  persists : m.world.persistence = some ⟨file, some handle⟩
  active : m.world.store.isActive handle = true

/-! ## Writers -/

/-- All writers write to the settings file, and the one that keeps it up to date is a writer. -/
structure Writers (m : Machine κ μ ν) : Prop where
  file : ∀ s, m.delivery.Listed s → ∀ file, s.listener = .writer file →
    ∃ writer, m.world.persistence = some ⟨file, writer⟩
  own : ∀ file handle, m.world.persistence = some ⟨file, some handle⟩ →
    handle < m.world.store.nextHandle ∧
      ∀ s, m.delivery.Listed s → s.handle = handle → s.listener = .writer file

theorem Writers.step (writers : m.Writers) (coherent : m.Coherent) : (m.step behave).Writers := by
  have step := (coherent.advance behave).delivery
  obtain ⟨files, filed⟩ := step_filed behave m
  constructor
  · intro s listed file writes
    rw [filed.persistence]
    rcases step.listed listed with before | ⟨_, call, happens, rfl⟩
    · obtain ⟨writer, persists⟩ := writers.file s before file writes
      exact files.persistence_file persists
    · rw [happens] at files
      exact ⟨_, files.of_subscribed writes⟩
  · intro file handle persists
    rw [filed.persistence] at persists
    rcases files.writer_eq persists with before | ⟨rfl, happens⟩
    · obtain ⟨old, own⟩ := writers.own file handle before
      refine ⟨Nat.lt_of_lt_of_le old step.nextHandle_le, fun s listed same => ?_⟩
      rcases step.listed listed with before | ⟨new, _⟩
      · exact own s before same
      · exact absurd (new.symm.trans same) (Nat.ne_of_gt old)
    · constructor
      · rw [happens] at step
        have next := step.subscribed_eq.2
        have handles : (m.step behave).world.store.nextHandle = m.world.store.nextHandle + 1 :=
          congrArg (fun d => d.store.nextHandle) next
        rw [handles]
        exact Nat.lt_succ_self _
      · intro s listed same
        rcases step.listed listed with before | ⟨_, call, subscribes, rfl⟩
        · exact absurd same (Nat.ne_of_lt (coherent.orderly.lt_of_listed before))
        · cases happens.symm.trans subscribes
          rfl

/-- Nobody is waited for when a script starts. -/
theorem listed_of_start {script : Script κ μ ν} {s : Subscription κ}
    (listed : (start m.world script).delivery.Listed s) : m.delivery.Listed s := by
  rcases listed with member | ⟨_, _, turn, _⟩
  · exact .inl member
  · cases turn

theorem Writers.next (writers : m.Writers) (script : Script κ μ ν) : (start m.world script).Writers := by
  constructor
  · intro s listed
    exact writers.file s (listed_of_start listed)
  · intro file handle persists
    obtain ⟨old, own⟩ := writers.own file handle persists
    exact ⟨old, fun s listed => own s (listed_of_start listed)⟩

theorem Fresh.writers {initial : Value} (fresh : first.Fresh initial) : first.Writers := by
  obtain ⟨started, files, file, memory, script⟩ := fresh
  obtain ⟨settings, _, rfl⟩ := Store.start_eq_ok started
  constructor
  · intro s listed
    rcases listed with member | ⟨_, _, turn, _⟩
    · cases member
    · cases turn
  · intro place handle persists
    cases file <;> cases persists

/-- A handle is the one of a writer of the settings file, or was before it was removed. -/
structure Writer (file : Path) (handle : Nat) (m : Machine κ μ ν) : Prop where
  persists : ∃ writer, m.world.persistence = some ⟨file, writer⟩
  old : handle < m.world.store.nextHandle
  writes : ∀ s, m.delivery.Listed s → s.handle = handle → s.listener = .writer file

theorem Keeps.writer (keeps : m.Keeps file handle) (writers : m.Writers) : m.Writer file handle := by
  obtain ⟨old, own⟩ := writers.own file handle keeps.persists
  exact ⟨⟨some handle, keeps.persists⟩, old, own⟩

theorem Writer.step (writer : m.Writer file handle) (coherent : m.Coherent) :
    (m.step behave).Writer file handle := by
  have step := (coherent.advance behave).delivery
  obtain ⟨files, filed⟩ := step_filed behave m
  obtain ⟨⟨_, persists⟩, old, writes⟩ := writer
  refine ⟨?_, Nat.lt_of_lt_of_le old step.nextHandle_le, ?_⟩
  · rw [filed.persistence]
    exact files.persistence_file persists
  · intro s listed same
    rcases step.listed listed with before | ⟨new, _⟩
    · exact writes s before same
    · exact absurd (new.symm.trans same) (Nat.ne_of_gt old)

theorem Writer.next (writer : m.Writer file handle) (script : Script κ μ ν) :
    (start m.world script).Writer file handle :=
  ⟨writer.persists, writer.old, fun s listed => writer.writes s (listed_of_start listed)⟩

/-! ## Following -/

/-- The file holds the document of the configuration in force. -/
def Recorded (file : Path) (m : Machine κ μ ν) : Prop :=
  ∃ text, m.world.store.live.document = .ok text ∧ m.world.files.Holds file text

/-- The file is up to date whenever its writer exists and is owed nothing. -/
structure Following (file : Path) (handle : Nat) (m : Machine κ μ ν) : Prop where
  writer : m.Writer file handle
  recorded : m.world.store.isActive handle = true → m.delivery.owed handle = [] → m.Recorded file

theorem Recorded.step_of_same (recorded : m.Recorded file)
    (live : (m.step behave).world.store.live = m.world.store.live)
    (same : (m.filing.files m.world.files).lookup? file = m.world.files.lookup? file) :
    (m.step behave).Recorded file := by
  obtain ⟨text, isText, holds⟩ := recorded
  refine ⟨text, ?_, ?_⟩
  · rw [live, isText]
  · rw [(step_filed behave m).2.files]
    exact same.trans holds

/-- A configuration that is saved while it is in force is recorded. -/
theorem recorded_of_saved (canonical : m.world.store.live.Canonical) (undisturbed : m.Undisturbed file)
    (saves : m.filing = .saved file m.world.store.live)
    (live : (m.step behave).world.store.live = m.world.store.live) : (m.step behave).Recorded file := by
  obtain ⟨text, isText, _⟩ := canonical.document
  obtain ⟨record, succeeds⟩ := undisturbed.saves file _ saves
  refine ⟨text, ?_, ?_⟩
  · rw [live, isText]
  · rw [(step_filed behave m).2.files, saves]
    exact (Settings.savesAs_of_document isText).writes succeeds

/-- What is handed out last is in force. -/
theorem Converging.snapshot_eq (converging : m.Converging Eq) (coherent : m.Coherent) {call : Call κ}
    (hands : m.happening? = some (.handed call))
    (empty : (m.step behave).world.store.pending = []) : call.snapshot = m.world.store.live := by
  have step := (coherent.advance behave).delivery
  rw [hands] at step
  obtain ⟨last, account, same⟩ := converging.account call.subscription.handle step.served.2
  rw [coherent.orderly.owed_of_handed step empty, List.getLast?_append, List.getLast?_singleton] at account
  exact (Option.some.inj account).trans same

/-- If the writer was not called then nothing was owed to it before, and the file was up to date. -/
theorem Following.recorded_of_uncalled (following : m.Following file handle) (coherent : m.Coherent)
    (canonical : m.world.store.live.Canonical) (undisturbed : m.Undisturbed file)
    (active : (m.step behave).world.store.isActive handle = true)
    (nothing : (m.step behave).delivery.owed handle = [])
    (others : ∀ call, m.happening? = some (.handed call) → call.subscription.handle ≠ handle)
    (same : (m.filing.files m.world.files).lookup? file = m.world.files.lookup? file) :
    (m.step behave).Recorded file := by
  have step := (coherent.advance behave).delivery
  have before : m.world.store.isActive handle = true := by
    rcases step.isActive_before active with before | ⟨new, _⟩
    · exact before
    · exact absurd new (Nat.ne_of_lt following.writer.old)
  have smooth := undisturbed.smooth coherent canonical
  obtain ⟨owed, live⟩ := coherent.orderly.owed_eq_nil step before
    (happening?_ne_aborted smooth.1) (happening?_ne_slipped smooth.2) (Delivery.heardBy_handed others) nothing
  exact (following.recorded before owed).step_of_same live same

theorem Following.step (following : m.Following file handle) (coherent : m.Coherent)
    (converging : m.Converging Eq) (writers : m.Writers) (canonical : m.world.store.live.Canonical)
    (undisturbed : m.Undisturbed file) : (m.step behave).Following file handle := by
  have writer := following.writer
  refine ⟨writer.step coherent, fun active nothing => ?_⟩
  have step := (coherent.advance behave).delivery
  have kept := following.recorded_of_uncalled coherent canonical undisturbed active nothing
  have empty : (m.step behave).world.store.pending = [] := (List.append_eq_nil_iff.mp nothing).2
  have live : (m.step behave).world.store.live = _ := step.live_eq
  obtain ⟨_, persists⟩ := writer.persists
  have files := (step_filed behave m).1
  generalize filing : m.filing = filing at files kept
  generalize happens : m.happening? = happening at files kept live
  cases files with
  | quiet silent =>
    refine kept (fun call hands own => ?_) rfl
    rw [hands] at happens silent
    rw [happens] at step
    obtain ⟨c, same⟩ := silent call rfl
    cases same.symm.trans (writer.writes _ step.served.1 own)
  | @written subscription snapshot place writes =>
    rw [happens] at step
    obtain ⟨_, known⟩ := writers.file subscription step.served.1 place writes
    cases known.symm.trans persists
    have isLive : snapshot = m.world.store.live := converging.snapshot_eq coherent happens empty
    rw [isLive] at filing
    exact recorded_of_saved canonical undisturbed filing live
  | missing known =>
    cases known.symm.trans persists
    exact recorded_of_saved canonical undisturbed filing live
  | edited change =>
    refine kept nofun ?_
    cases changed : change m.world.files with
    | error fault => rw [Filing.files, changed]; rfl
    | ok after =>
      rw [Filing.files, changed]
      exact undisturbed.untouched change after filing changed
  | enabled => exact kept nofun rfl
  | disabled _ silent =>
    refine kept (fun call hands => ?_) rfl
    rw [hands] at silent
    cases silent

theorem Following.next (following : m.Following file handle) (coherent : m.Coherent)
    (idle : m.world.store.notifying = false) (script : Script κ μ ν) :
    (start m.world script).Following file handle where
  writer := following.writer.next script
  recorded active _ := following.recorded active (coherent.orderly.owed_of_idle idle)

/-- A writer that keeps the file up to date when a configuration is accepted is owed it. -/
theorem Keeps.following (keeps : m.Keeps file handle) (coherent : m.Coherent) (writers : m.Writers)
    {settings : Settings} (accepts : m.happening? = some (.accepted settings)) :
    (m.step behave).Following file handle := by
  refine ⟨(keeps.writer writers).step coherent, fun _ nothing => ?_⟩
  have unaborted : m.happening? ≠ some .aborted := by
    rw [accepts]
    intro same
    cases same
  have account := coherent.orderly.owed_step (coherent.advance behave).delivery keeps.active unaborted
  rw [nothing, accepts] at account
  cases (List.append_eq_nil_iff.mp account.symm).2

/-! ## Courses -/

/-- What the settings file follows from. -/
structure Steady (m : Machine κ μ ν) : Prop where
  converging : m.Converging Eq
  writers : m.Writers
  canonical : m.world.store.live.Canonical

theorem Steady.step (steady : m.Steady) (coherent : m.Coherent) (undisturbed : m.Undisturbed file) :
    (m.step behave).Steady where
  converging := steady.converging.step_of_smooth coherent (undisturbed.smooth coherent steady.canonical)
  writers := steady.writers.step coherent
  canonical := undisturbed.genuine.canonical_step coherent steady.canonical

theorem Steady.next (steady : m.Steady) (coherent : m.Coherent)
    (idle : m.world.store.notifying = false) (script : Script κ μ ν) : (start m.world script).Steady where
  converging := steady.converging.next coherent idle script
  writers := steady.writers.next script
  canonical := steady.canonical

theorem Fresh.steady {initial : Value} (fresh : first.Fresh initial) (genuine : initial.Genuine) :
    first.Steady where
  converging := fresh.converging Eq
  writers := fresh.writers
  canonical := (fresh.canonical genuine).delivery.live

theorem happening?_replace {s : Settings} (valid : s.Valid) (live : Settings) :
    ((live.attemptReplace (.settings s)).happening? live : Option (Happening κ)) =
      some (.accepted s) := by
  rw [Settings.attemptReplace_of_valid valid]
  rfl

/-- A valid configuration that is put in the place of another while nothing is being handed out starts
to be handed out. -/
theorem settle_replace {s : Settings} (valid : s.Valid) (idle : m.world.store.notifying = false)
    (answer : Option Fault → Script κ μ ν) : ∃ world : World κ μ ν,
      m.settle (m.world.store.live.attemptReplace (.settings s)) answer =
        ⟨world, m.stack, .drain (answer none)⟩ ∧
      world.store = { (m.world.store.hold s).announce with notifying := true } ∧
      world.files = m.world.files ∧ world.persistence = m.world.persistence := by
  have busy : ¬(m.world.store.hold s).announce.notifying = true := by
    show ¬m.world.store.notifying = true
    rw [idle]
    nofun
  simp only [settle, Settings.attemptReplace_of_valid valid, Attempt.accepted]
  exact ⟨_, if_neg busy, rfl, rfl, rfl⟩

/-- A fresh store that reads a file from which a valid configuration is loaded has it in force. -/
theorem run_readFile {files : FileTree} {s : Settings} (present : files.exists? file = .ok true)
    (loads : (Settings.load files file).outcome = .ok s) (valid : s.Valid) {other : Value}
    {store : Store κ} (started : Store.start other = .ok store) (memory : μ)
    (trace : List (Event κ ν)) :
    let reader := (start ⟨store, files, some ⟨file, none⟩, memory, trace⟩ .readFile).run behave 5
    reader.outcome? = some .returned ∧ reader.world.store.live = s := by
  obtain ⟨settings, _, rfl⟩ := Store.start_eq_ok started
  intro reader
  -- The first step puts the configuration in force, and the others hand it out to nobody.
  let opened : Machine κ μ ν := start ⟨.ofSettings settings, files, some ⟨file, none⟩, memory, trace⟩ .readFile
  let logged : Machine κ μ ν :=
    { opened with world := opened.world.log (Settings.load files file).records }
  obtain ⟨world, settles, isStore, _⟩ := settle_replace (m := logged) valid rfl fun fault =>
    fault.elim .done .fail
  have reads : opened.step behave = ⟨world, [], .drain .done⟩ := by
    refine Eq.trans ?_ settles
    simp only [opened, step, start, Script.readFile, obey, persist, reload, present, loads]
    rfl
  obtain ⟨store, files, persistence, memory, trace⟩ := world
  obtain rfl : store = _ := isStore
  have runs : reader = run behave 4 ⟨⟨_, files, persistence, memory, trace⟩, [], .drain .done⟩ :=
    (run_succ behave 4).trans (congrArg (run behave 4) reads)
  rw [runs]
  exact ⟨rfl, rfl⟩

/-- Where all steps and configurations are built, no run is aborted, nothing that is saved fails to be
saved and nobody else touches the settings file: once an operation at the top has returned, the file
holds the document of the configuration in force, if it has been kept up to date since before some
configuration was accepted. A fresh store that reads the file ends with the same configuration. -/
theorem Course.file_follows {initial : Value} (fresh : first.Fresh initial) (genuine : initial.Genuine)
    (before : Course behave (Undisturbed file) first accepting) {settings : Settings}
    (accepts : accepting.happening? = some (.accepted settings)) (enabled : accepting.Keeps file handle)
    (permitted : accepting.Undisturbed file)
    (after : Course behave (Undisturbed file) (accepting.step behave) m) (still : m.Keeps file handle)
    (returned : m.Returned) :
    ∃ text, m.world.store.live.document = .ok text ∧ m.world.files.Holds file text ∧
      ∀ {other : Value} {store : Store κ}, Store.start other = .ok store → ∀ memory trace,
        let reader := (start ⟨store, m.world.files, some ⟨file, none⟩, memory, trace⟩
          .readFile : Machine κ μ ν).run behave 5
        reader.outcome? = some .returned ∧ reader.world.store.live = m.world.store.live := by
  have reachable : accepting.Reachable behave := before.reachable fresh.reachable
  have steady : accepting.Steady := by
    refine before.induct fresh.reachable (fresh.steady genuine) ?_ ?_
    · intro m coherent undisturbed steady
      exact steady.step coherent undisturbed
    · intro m script coherent idle steady
      exact steady.next coherent idle script
  have coherent := reachable.coherent
  let holds (m : Machine κ μ ν) : Prop := m.Steady ∧ m.Following file handle
  have begins : holds (accepting.step behave) :=
    ⟨steady.step coherent permitted, enabled.following coherent steady.writers accepts⟩
  have following : holds m := by
    refine after.induct reachable.step begins ?_ ?_
    · rintro m coherent undisturbed ⟨steady, following⟩
      exact ⟨steady.step coherent undisturbed, following.step coherent steady.converging steady.writers
        steady.canonical undisturbed⟩
    · rintro m script coherent idle ⟨steady, following⟩
      exact ⟨steady.next coherent idle script, following.next coherent idle script⟩
  obtain ⟨steady, following⟩ := following
  have coherent := (after.reachable reachable.step).coherent
  have idle := coherent.idle_of_returned returned
  obtain ⟨text, isText, holds⟩ :=
    following.recorded still.active (coherent.orderly.owed_of_idle idle)
  refine ⟨text, isText, holds, fun started memory trace => ?_⟩
  have valid := coherent.live.valid steady.canonical.isApart
  exact run_readFile holds.exists? (steady.canonical.load valid isText holds) valid started memory trace

theorem Undisturbed.of_filing (goesOn : m.aborts = false) (genuine : m.Genuine)
    (saves : ∀ place settings, m.filing ≠ .saved place settings)
    (edits : ∀ change, m.filing ≠ .edited change) : m.Undisturbed file where
  goesOn := goesOn
  genuine := genuine
  saves place settings same := absurd same (saves place settings)
  untouched change _ same := absurd same (edits change)

/-- A writer whose turn it is saves and makes way for those who wait after it. -/
theorem step_of_writer (behave : κ → Settings → Script κ μ ν) {world : World κ μ ν}
    (active : world.store.isActive handle = true) (file : Path) (stack : List (Frame κ μ ν))
    (snapshot : Settings) (waiting : List (Subscription κ)) (next : Script κ μ ν) :
    ∃ after : World κ μ ν,
      step behave ⟨world, stack, .deliver snapshot (⟨handle, .writer file⟩ :: waiting) next⟩ =
        ⟨after, stack, .deliver snapshot waiting next⟩ ∧
      after.store = world.store ∧ after.persistence = world.persistence := by
  have saved (event : Event κ ν) := (world.happen event).files_save file snapshot
  simp only [step, call, active, if_true]
  exact ⟨_, rfl, World.store_save .., (saved _).2⟩

/-- If there is a writer and nobody else, it is handed what is pending and then the store is at rest. -/
theorem Course.of_lone_writer (behave : κ → Settings → Script κ μ ν) {world : World κ μ ν}
    {s : Settings} {record : Record}
    (alone : world.store.subscriptions = [⟨handle, .writer file⟩]) (waits : world.store.pending = [s])
    (saves : (s.save world.files file).2 = .ok record) (next : Script κ μ ν) :
    ∃ after : World κ μ ν,
      Course behave (Undisturbed file) ⟨world, [], .drain next⟩ ⟨after, [], .run next⟩ ∧
        after.store = world.store.rest ∧ after.persistence = world.persistence := by
  obtain ⟨⟨live, subscriptions, nextHandle, pending, notifying⟩, files, persistence, memory, trace⟩ := world
  obtain rfl : subscriptions = _ := alone
  obtain rfl : pending = _ := waits
  let draining : Machine κ μ ν := ⟨⟨⟨live, [⟨handle, .writer file⟩], nextHandle, [s], notifying⟩, files,
    persistence, memory, trace⟩, [], .drain next⟩
  let serving : Machine κ μ ν := draining.step behave
  have active : serving.world.store.isActive handle = true := Store.isActive_iff.mpr
    ⟨_, List.mem_singleton_self _, rfl⟩
  have filing : serving.filing = .saved file s := if_pos active
  have undisturbed : serving.Undisturbed file := by
    refine ⟨rfl, nofun, ?_, ?_⟩
    · intro place settings same
      cases filing.symm.trans same
      exact ⟨record, saves⟩
    · intro change files same
      cases filing.symm.trans same
  obtain ⟨after, serves, isStore, isPersistence⟩ := step_of_writer behave active file [] s [] next
  obtain ⟨store, written, persistence, memory, trace⟩ := after
  obtain rfl : store = _ := isStore
  obtain rfl : persistence = _ := isPersistence
  have begun : Course behave (Undisturbed file) draining serving :=
    Course.refl.step (Undisturbed.of_filing rfl nofun nofun nofun)
  have served := begun.step undisturbed
  rw [show serving.step behave = _ from serves] at served
  have handed := served.step (Undisturbed.of_filing rfl nofun nofun nofun)
  have rested := handed.step (Undisturbed.of_filing rfl nofun nofun nofun)
  exact ⟨_, rested, rfl, rfl⟩

/-- A file is kept up to date while another gain step of the microphone is put in force. -/
theorem file_follows_session : ∃ (m : Machine Hearer Unit Unit) (text : String), m.Returned ∧
    m.world.store.live.microphone? = some 28 ∧ m.world.store.live.document = .ok text ∧
      m.world.files.Holds ⟨"", ["settings.yaml"]⟩ text := by
  let file : Path := ⟨"", ["settings.yaml"]⟩
  obtain ⟨changed, canonical, valid, level⟩ : ∃ changed : Settings, changed.Canonical ∧ changed.Valid ∧
      changed.microphone? = some 28 := by
    have admitted : (Number.int 28).Admitted := by
      unfold Number.Admitted
      decide +kernel
    have holds : SettingField.microphone.Holds (.int 28) := ⟨.int 28, admitted, rfl⟩
    exact ⟨.ofMicrophone 28, Settings.defaults_canonical.set holds, by decide +kernel, rfl⟩
  obtain ⟨_, isText, _⟩ := canonical.document
  obtain ⟨record, saves⟩ := Settings.save_empty isText
  let opened : Machine Hearer Unit Unit :=
    start ⟨.ofSettings .defaults, .empty [], some ⟨file, none⟩, (), [.logged .passed]⟩
      (.enable fun _ => .mutate (.replace (.settings changed)) fun _ => .done)
  let accepting := opened.step Hearer.behave
  have fresh : Fresh .null opened := .of Store.start_null _ (some file) () _
  have before : Course Hearer.behave (Undisturbed file) opened accepting :=
    Course.refl.step (.of_filing rfl nofun nofun nofun)
  have permitted : accepting.Undisturbed file := by
    refine .of_filing rfl ?_ nofun nofun
    intro mutation tries
    cases tries
    exact Settings.built_iff.mpr canonical
  have accepts : accepting.happening? = some (.accepted changed) := happening?_replace valid _
  obtain ⟨world, opens, isStore, sameFiles, samePersistence⟩ :=
    settle_replace (m := accepting) valid rfl fun _ => .done
  have opens : accepting.step Hearer.behave = ⟨world, [], .drain .done⟩ := opens
  have saves : (changed.save world.files file).2 = .ok record := by rw [sameFiles]; exact saves
  obtain ⟨last, after, isRest, persists⟩ := Course.of_lone_writer Hearer.behave
    (by rw [isStore]; rfl) (by rw [isStore]; rfl) saves .done
  rw [← opens] at after
  have still : Keeps file 1 ⟨last, [], .run .done⟩ :=
    ⟨by rw [persists, samePersistence]; rfl, by rw [isRest, isStore]; rfl⟩
  obtain ⟨text, isText, holds, _⟩ :=
    Course.file_follows fresh trivial before accepts ⟨rfl, rfl⟩ permitted after still ⟨rfl, rfl⟩
  refine ⟨_, text, ⟨rfl, rfl⟩, ?_, isText, holds⟩
  rw [isRest, isStore]
  exact level

end Machine

end TrainingCollar
