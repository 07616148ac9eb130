import TrainingCollar.Proofs.Files.Saving
import TrainingCollar.Proofs.Loading
import TrainingCollar.Proofs.Store.KeptFile
import TrainingCollar.Proofs.Store.Notification

/-! # Reading the settings file again

A store that reads its settings file takes over what is there, or writes the file if it is missing. If
listeners leave store and files alone, then nothing happens to the files but what the writers do, so that
the files after a hand-out can be computed (`Settings.served`). Writers write what was read, and writing
it again changes nothing; so reading a second time changes nothing, and reading a file that cannot be
loaded changes nothing either: `Machine.Course.reading_is_atomic_and_idempotent`.
-/

namespace TrainingCollar

variable {κ μ ν : Type}

/-! ## Files after a hand-out -/

/-- All writers among the subscriptions write to this file. -/
def WrittenTo (path : Path) (subscriptions : List (Subscription κ)) : Prop :=
  ∀ s ∈ subscriptions, ∀ file, s.listener = .writer file → file = path

namespace Settings

variable {s : Settings} {path : Path} {files after : FileTree} {record : Record}
  {subscriptions : List (Subscription κ)}

/-- The files after the configuration was handed to a subscription, if callbacks leave files alone. -/
def servedTo (s : Settings) (files : FileTree) (subscription : Subscription κ) : FileTree :=
  match subscription.listener with
  | .callback _ => files
  | .writer file => (s.save files file).1

/-- The files after the configuration was handed to all subscriptions in their order. -/
def served (s : Settings) (files : FileTree) (subscriptions : List (Subscription κ)) : FileTree :=
  subscriptions.foldl s.servedTo files

/-- If it is saved already, writers change nothing. -/
theorem served_of_saved (writers : WrittenTo path subscriptions)
    (saved : save files path s = (files, .ok record)) : s.served files subscriptions = files := by
  induction subscriptions with
  | nil => rfl
  | cons first rest ih =>
    obtain ⟨firstWrites, othersWrite⟩ := List.forall_mem_cons.mp writers
    have same : s.servedTo files first = files := by
      unfold servedTo
      split
      · rfl
      · next file isWriter =>
        rw [firstWrites file isWriter, saved]
    rw [served, List.foldl_cons, same]
    exact ih othersWrite

/-- If it can be saved, then it is once there is a writer, and until then nothing happens. -/
theorem served_cases (writers : WrittenTo path subscriptions)
    (saved : save files path s = (after, .ok record)) (again : save after path s = (after, .ok record)) :
    s.served files subscriptions = files ∨ s.served files subscriptions = after := by
  induction subscriptions with
  | nil => exact .inl rfl
  | cons first rest ih =>
    obtain ⟨firstWrites, othersWrite⟩ := List.forall_mem_cons.mp writers
    rw [served, List.foldl_cons, servedTo]
    split
    · exact ih othersWrite
    · next file isWriter =>
      rw [firstWrites file isWriter, saved]
      exact .inr (served_of_saved othersWrite again)

end Settings

/-! ## Passive listeners -/

/-- A script that leaves store and files alone and ends, with a fault or without. -/
inductive Script.Passive : Script κ μ ν → Prop
  | done : Passive .done
  | fail (fault : Fault) : Passive (.fail fault)
  | look {next : Settings → Script κ μ ν} (rest : ∀ settings, Passive (next settings)) :
      Passive (.look next)
  | recollect {next : μ → Script κ μ ν} (rest : ∀ memory, Passive (next memory)) :
      Passive (.recall next)
  | remember {memory : μ} {next : Script κ μ ν} (rest : Passive next) : Passive (.remember memory next)
  | note {text : ν} {next : Script κ μ ν} (rest : Passive next) : Passive (.note text next)

/-- A listener that leaves store and files alone whatever it is handed, unless it is a writer. -/
def Listener.Passive (behave : κ → Settings → Script κ μ ν) : Listener κ → Prop
  | .callback c => ∀ snapshot, (behave c snapshot).Passive
  | .writer _ => True

/-- The second world has the store and the persistence of the first one, and these files. -/
structure World.Leaves (world after : World κ μ ν) (files : FileTree) : Prop where
  store : after.store = world.store
  persistence : after.persistence = world.persistence
  files : after.files = files

namespace Machine

variable {behave : κ → Settings → Script κ μ ν} {m : Machine κ μ ν}

section Frames

variable {snapshot : Settings} {waiting : List (Subscription κ)} {next : Script κ μ ν}
  {stack : List (Frame κ μ ν)}

/-- A passive callback gives its hand-out the turn back. -/
theorem comesTo_of_passive {script : Script κ μ ν} (passive : script.Passive) (world : World κ μ ν)
    (handle : Nat) : ∃ after : World κ μ ν, world.Leaves after world.files ∧
      ComesTo behave ⟨world, .fanOut handle snapshot waiting next :: stack, .run script⟩
        ⟨after, stack, .deliver snapshot waiting next⟩ := by
  induction passive generalizing world with
  | done => exact ⟨world.log [], ⟨rfl, rfl, rfl⟩, .step .refl⟩
  | fail fault => exact ⟨world.log [failedRecord handle fault], ⟨rfl, rfl, rfl⟩, .step .refl⟩
  | look _ ih =>
    obtain ⟨after, leaves, comes⟩ := ih world.store.live world
    exact ⟨after, leaves, comes.step⟩
  | recollect _ ih =>
    obtain ⟨after, leaves, comes⟩ := ih world.memory world
    exact ⟨after, leaves, comes.step⟩
  | @remember memory _ _ ih =>
    obtain ⟨after, leaves, comes⟩ := ih { world with memory := memory }
    exact ⟨after, ⟨leaves.store, leaves.persistence, leaves.files⟩, comes.step⟩
  | @note text _ _ ih =>
    obtain ⟨after, leaves, comes⟩ := ih (world.happen (.noted text))
    exact ⟨after, ⟨leaves.store, leaves.persistence, leaves.files⟩, comes.step⟩

/-- A subscription that exists is served, if its listener is passive. -/
theorem comesTo_of_passive_served {world : World κ μ ν} {s : Subscription κ}
    (active : world.store.isActive s.handle = true) (passive : s.listener.Passive behave) :
    ∃ after : World κ μ ν, world.Leaves after (snapshot.servedTo world.files s) ∧
      ComesTo behave ⟨world, stack, .deliver snapshot (s :: waiting) next⟩
        ⟨after, stack, .deliver snapshot waiting next⟩ := by
  obtain ⟨handle, listener⟩ := s
  let called : World κ μ ν := world.happen (.called handle listener snapshot)
  cases listener with
  | callback c =>
    obtain ⟨after, leaves, comes⟩ : ∃ after : World κ μ ν, called.Leaves after called.files ∧
        ComesTo behave ⟨called, .fanOut handle snapshot waiting next :: stack, .run (behave c snapshot)⟩
          ⟨after, stack, .deliver snapshot waiting next⟩ :=
      comesTo_of_passive (passive snapshot) called handle
    refine ⟨after, ⟨leaves.store, leaves.persistence, leaves.files⟩, .step ?_⟩
    simp only [Machine.step, call, active, ↓reduceIte]
    exact comes
  | writer file =>
    let saved := called.save file snapshot
    obtain ⟨files, persistence⟩ := called.files_save file snapshot
    refine ⟨saved.1.log (saved.2.toList.map (failedRecord handle)),
      ⟨World.store_save .., persistence, files⟩, .step ?_⟩
    simp only [Machine.step, call, active, ↓reduceIte]
    exact .refl

/-- All that wait are served in their order, if they exist and their listeners are passive. -/
theorem comesTo_of_passive_waiting (world : World κ μ ν)
    (active : ∀ s ∈ waiting, world.store.isActive s.handle = true)
    (passive : ∀ s ∈ waiting, s.listener.Passive behave) :
    ∃ after : World κ μ ν, world.Leaves after (snapshot.served world.files waiting) ∧
      ComesTo behave ⟨world, stack, .deliver snapshot waiting next⟩ ⟨after, stack, .drain next⟩ := by
  induction waiting generalizing world with
  | nil => exact ⟨world, ⟨rfl, rfl, rfl⟩, .step .refl⟩
  | cons s rest ih =>
    obtain ⟨firstActive, othersActive⟩ := List.forall_mem_cons.mp active
    obtain ⟨firstPassive, othersPassive⟩ := List.forall_mem_cons.mp passive
    obtain ⟨middle, leaves, serves⟩ := comesTo_of_passive_served firstActive firstPassive
    rw [← leaves.store] at othersActive
    obtain ⟨after, leavesToo, comes⟩ := ih middle othersActive othersPassive
    refine ⟨after, ⟨leavesToo.store.trans leaves.store,
      leavesToo.persistence.trans leaves.persistence, ?_⟩, serves.trans comes⟩
    rw [leavesToo.files, leaves.files]
    rfl

/-- A configuration that waits alone is handed to passive listeners, and then the store is at rest. -/
theorem comesTo_of_passive_drain {store : Store κ} {world : World κ μ ν}
    (idle : store.notifying = false) (nothing : store.pending = [])
    (isStore : world.store = { (store.hold snapshot).announce with notifying := true })
    (passive : ∀ s ∈ store.subscriptions, s.listener.Passive behave) :
    ∃ after : World κ μ ν, after.store = store.hold snapshot ∧ after.persistence = world.persistence ∧
      after.files = snapshot.served world.files store.subscriptions ∧
        ComesTo behave ⟨world, stack, .drain next⟩ ⟨after, stack, .run next⟩ := by
  let serving : World κ μ ν := { world with store := { world.store with pending := [] } }
  have isServing : serving.store = { store.hold snapshot with pending := [], notifying := true } := by
    show { world.store with pending := [] } = _
    rw [isStore]
    rfl
  have active : ∀ s ∈ store.subscriptions, serving.store.isActive s.handle = true := by
    intro s member
    rw [isServing]
    exact Store.isActive_iff.mpr ⟨s, member, rfl⟩
  obtain ⟨served, leaves, serves⟩ : ∃ served : World κ μ ν,
      serving.Leaves served (snapshot.served serving.files store.subscriptions) ∧
        ComesTo behave ⟨serving, stack, .deliver snapshot store.subscriptions next⟩
          ⟨served, stack, .drain next⟩ := comesTo_of_passive_waiting serving active passive
  refine ⟨{ served with store := served.store.rest }, ?_, leaves.persistence, leaves.files, ?_⟩
  · rw [leaves.store, isServing]
    exact Store.rest_of_idle (s := store.hold snapshot) idle nothing
  · have waits : world.store.pending = [snapshot] := by
      rw [isStore]
      exact congrArg (· ++ [snapshot]) nothing
    have everybody : world.store.subscriptions = store.subscriptions := by
      rw [isStore]
      rfl
    refine comesTo_of_drain waits (by rw [leaves.store]) ?_
    rw [everybody]
    exact serves

end Frames

/-! ## Reading once -/

/-- Two runs of a machine that have ended have come to the same. -/
theorem ComesTo.eq_of_ended {later other : Machine κ μ ν} (comes : m.ComesTo behave later)
    (ended : later.outcome?.isSome) (also : m.ComesTo behave other) (endedToo : other.outcome?.isSome) :
    later = other := by
  obtain ⟨steps, rfl⟩ := comes
  obtain ⟨others, rfl⟩ := also
  induction steps generalizing m others with
  | zero => exact (run_of_ended behave ended others).symm
  | succ steps ih =>
    cases others with
    | zero => exact run_of_ended behave endedToo (steps + 1)
    | succ others =>
      rw [run_succ] at ended endedToo ⊢
      rw [run_succ]
      exact ih ended others endedToo

/-- Reading the settings file in a world ends like this, with another world. -/
def Reads (behave : κ → Settings → Script κ μ ν) (world after : World κ μ ν) (outcome : Outcome) :
    Prop :=
  (start world .readFile).ComesTo behave ⟨after, [], .ended outcome⟩

section Reading

variable {world after other : World κ μ ν} {outcome ending : Outcome} {p : Persistence} {fault : Fault}
  {s : Settings}

theorem Reads.unique (reads : Reads behave world after outcome)
    (also : Reads behave world other ending) : after = other ∧ outcome = ending := by
  have same := ComesTo.eq_of_ended reads rfl also rfl
  cases same
  exact ⟨rfl, rfl⟩

/-- What the command to read comes to is how reading ends. -/
theorem reads_of_reload (answer : Option Fault) (persists : world.persistence = some p)
    (reloads : ((start world .readFile).reload p.file fun fault => fault.elim .done .fail).ComesTo behave
      (start after (answer.elim .done .fail))) :
    Reads behave world after (answer.elim .returned .failed) := by
  have obeys : (start world .readFile).step behave =
      (start world .readFile).reload p.file fun fault => fault.elim .done .fail := by
    show persist _ _ _ = _
    simp only [persist, start, persists]
  refine .step ?_
  rw [obeys]
  refine reloads.trans (.step ?_)
  cases answer with
  | none => exact .refl
  | some fault => exact .refl

/-- A file that cannot be loaded changes nothing. -/
theorem reads_of_refused (persists : world.persistence = some p)
    (refused : world.files.exists? p.file = .error fault ∨ world.files.exists? p.file = .ok true ∧
      (Settings.load world.files p.file).outcome = .error fault) :
    Reads behave world world (.failed fault) := by
  refine reads_of_reload (some fault) persists ?_
  rcases refused with unknown | ⟨present, unloaded⟩
  · simp only [reload, start, unknown]
    exact .refl
  · have nothing : Settings.load world.files p.file = ⟨[], .error fault⟩ := by
      rw [Settings.load_outcome] at unloaded
      rw [Settings.load, unloaded]
    have unchanged : world.log [] = world := by
      simp [World.log]
    simp only [reload, start, present, nothing, unchanged]
    exact .refl

/-- A file that is missing is written. -/
theorem reads_of_missing (persists : world.persistence = some p)
    (missing : world.files.exists? p.file = .ok false) :
    ∃ (after : World κ μ ν) (answer : Option Fault),
      Reads behave world after (answer.elim .returned .failed) ∧
        world.Leaves after (world.store.live.save world.files p.file).1 ∧
          (answer = none → ∃ record, (world.store.live.save world.files p.file).2 = .ok record) := by
  let logged : World κ μ ν := world.log [⟨.persistence, .info,
    "No settings file at " ++ p.file.text ++ ", writing current settings"⟩]
  obtain ⟨files, persistence⟩ := logged.files_save p.file world.store.live
  refine ⟨_, _, reads_of_reload (logged.save p.file world.store.live).2 persists ?_,
    ⟨logged.store_save .., persistence, files⟩, ?_⟩
  · simp only [reload, start, missing]
    exact .refl
  · unfold World.save
    split
    · next record saved =>
      intro _
      exact ⟨record, congrArg Prod.snd saved⟩
    · intro succeeds
      cases succeeds

/-- What holds of a world between operations, if its listeners are passive. -/
structure Calm (behave : κ → Settings → Script κ μ ν) (p : Persistence) (world : World κ μ ν) : Prop where
  idle : world.store.notifying = false
  nothing : world.store.pending = []
  persists : world.persistence = some p
  passive : ∀ s ∈ world.store.subscriptions, s.listener.Passive behave
  writers : WrittenTo p.file world.store.subscriptions

/-- What is loaded is put in force and handed to everybody. -/
theorem Calm.reads_of_loaded (calm : Calm behave p world)
    (loaded : (Settings.load world.files p.file).outcome = .ok s) :
    ∃ after : World κ μ ν, Reads behave world after .returned ∧ Calm behave p after ∧
      after.store.live = s ∧ after.store.subscriptions = world.store.subscriptions ∧
        after.files = s.served world.files world.store.subscriptions := by
  have valid := Settings.valid_of_load loaded
  obtain ⟨text, holds⟩ := Settings.holds_of_load loaded
  let logged : World κ μ ν := world.log (Settings.load world.files p.file).records
  obtain ⟨opened, settles, isStore, sameFiles, samePersistence⟩ :=
    settle_replace (m := start logged .readFile) valid calm.idle fun fault => fault.elim .done .fail
  have reloads : (start world .readFile).reload p.file (fun fault => fault.elim .done .fail) =
      ⟨opened, [], .drain .done⟩ := by
    refine Eq.trans ?_ settles
    simp only [reload, start, holds.exists?, loaded]
    rfl
  obtain ⟨after, isRest, persistence, files, comes⟩ : ∃ after : World κ μ ν,
      after.store = world.store.hold s ∧ after.persistence = opened.persistence ∧
        after.files = s.served opened.files world.store.subscriptions ∧
          ComesTo behave ⟨opened, [], .drain .done⟩ ⟨after, [], .run .done⟩ :=
    comesTo_of_passive_drain calm.idle calm.nothing isStore calm.passive
  refine ⟨after, reads_of_reload none calm.persists (by rw [reloads]; exact comes), ?_, ?_, ?_, ?_⟩
  · exact {
      idle := isRest ▸ calm.idle
      nothing := isRest ▸ calm.nothing
      persists := persistence.trans (samePersistence.trans calm.persists)
      passive := isRest ▸ calm.passive
      writers := isRest ▸ calm.writers }
  · rw [isRest]
    rfl
  · rw [isRest]
    rfl
  · exact files.trans (congrArg (s.served · _) sameFiles)

theorem Calm.of_leaves {files : FileTree} (calm : Calm behave p world)
    (leaves : world.Leaves after files) : Calm behave p after where
  idle := leaves.store ▸ calm.idle
  nothing := leaves.store ▸ calm.nothing
  persists := leaves.persistence.trans calm.persists
  passive := leaves.store ▸ calm.passive
  writers := leaves.store ▸ calm.writers

/-! ## Reading twice -/

/-- A file holds what is in force, and reading it again changes neither. -/
def Settled (behave : κ → Settings → Script κ μ ν) (file : Path) (world : World κ μ ν) : Prop :=
  ∃ again text, Reads behave world again .returned ∧ again.store.live = world.store.live ∧
    again.files = world.files ∧ world.files.Holds file text

/-- Where the configuration in force is loaded from the file and writers have nothing to add, nothing
comes of reading the file. -/
theorem Calm.settled (calm : Calm behave p world)
    (loaded : (Settings.load world.files p.file).outcome = .ok world.store.live)
    (written : world.store.live.served world.files world.store.subscriptions = world.files) :
    Settled behave p.file world := by
  obtain ⟨text, holds⟩ := Settings.holds_of_load loaded
  obtain ⟨again, reads, _, isLive, _, files⟩ := calm.reads_of_loaded loaded
  exact ⟨again, text, reads, isLive, files.trans written, holds⟩

/-- Once the configuration in force has been written to a missing file, the file is settled. -/
theorem Calm.settled_of_missing (calm : Calm behave p world) (canonical : world.store.live.Canonical)
    (valid : world.store.live.Valid) (tree : world.files.IsTree)
    (leaves : world.Leaves after (world.store.live.save world.files p.file).1) {record : Record}
    (saved : (world.store.live.save world.files p.file).2 = .ok record) :
    Settled behave p.file after := by
  obtain ⟨text, isText, _⟩ := canonical.document
  have holds := (Settings.savesAs_of_document isText).writes saved
  rw [← leaves.files] at holds
  have whole : world.store.live.save world.files p.file = (after.files, .ok record) :=
    Prod.ext leaves.files.symm saved
  have again := Settings.save_again (tree.origin p.file) whole
  apply (calm.of_leaves leaves).settled
  · rw [leaves.store]
    exact canonical.load valid isText holds
  · rw [leaves.store]
    exact Settings.served_of_saved calm.writers again

/-- A file that is loaded is settled then, whether it was written or not. -/
theorem Calm.reads_and_settles (calm : Calm behave p world) (tree : world.files.IsTree)
    (loaded : (Settings.load world.files p.file).outcome = .ok s) :
    ∃ after : World κ μ ν, Reads behave world after .returned ∧ Settled behave p.file after := by
  obtain ⟨after, reads, calmAfter, isLive, everybody, files⟩ := calm.reads_of_loaded loaded
  refine ⟨after, reads, ?_⟩
  have canonical := Settings.canonical_of_load loaded
  obtain ⟨text, isText, _⟩ := canonical.document
  obtain ⟨_, holds⟩ := Settings.holds_of_load loaded
  obtain ⟨location, located, there⟩ := holds.locate
  have saved := Settings.save_over (tree.origin p.file) located there (s := s)
  rw [isText] at saved
  have again := Settings.save_again (tree.origin p.file) saved
  -- Either no writer had its turn, and the files are the same, or the last one left the document there.
  have unchanged : s.served after.files world.store.subscriptions = after.files ∧
      (Settings.load after.files p.file).outcome = .ok s := by
    rw [files]
    rcases Settings.served_cases calm.writers saved again with same | written
    · rw [same]
      exact ⟨same, loaded⟩
    · have holdsText := (Settings.savesAs_of_document isText).writes (congrArg Prod.snd saved)
      rw [saved] at holdsText
      rw [written]
      exact ⟨Settings.served_of_saved calm.writers again,
        canonical.load (Settings.valid_of_load loaded) isText holdsText⟩
  apply calmAfter.settled
  · rw [isLive]
    exact unchanged.2
  · rw [isLive, everybody]
    exact unchanged.1

/-- Reading ends; if it fails over a file that exists nothing has changed, and if it succeeds the file
is settled. -/
theorem Calm.reading (calm : Calm behave p world) (canonical : world.store.live.Canonical)
    (valid : world.store.live.Valid) (tree : world.files.IsTree) :
    ∃ (after : World κ μ ν) (answer : Option Fault),
      Reads behave world after (answer.elim .returned .failed) ∧
        (answer ≠ none → world.files.exists? p.file = .ok true → after = world) ∧
          (answer = none → Settled behave p.file after) := by
  cases present : world.files.exists? p.file with
  | error fault =>
    exact ⟨world, some fault, reads_of_refused calm.persists (.inl present), fun _ _ => rfl, nofun⟩
  | ok there =>
    cases there with
    | false =>
      obtain ⟨after, answer, reads, leaves, saves⟩ := reads_of_missing calm.persists present
      refine ⟨after, answer, reads, fun _ => nofun, fun succeeds => ?_⟩
      obtain ⟨record, saved⟩ := saves succeeds
      exact calm.settled_of_missing canonical valid tree leaves saved
    | true =>
      cases loaded : (Settings.load world.files p.file).outcome with
      | error fault =>
        have reads : Reads behave world world (.failed fault) :=
          reads_of_refused calm.persists (.inr ⟨present, loaded⟩)
        exact ⟨world, some fault, reads, fun _ _ => rfl, nofun⟩
      | ok s =>
        obtain ⟨after, reads, settled⟩ := calm.reads_and_settles tree loaded
        exact ⟨after, none, reads, fun failed => absurd rfl failed, fun _ => settled⟩

end Reading

variable {first : Machine κ μ ν} {p : Persistence}

/-- Between operations of a course a world is calm if its listeners are passive. -/
theorem Course.calm {allowed : Machine κ μ ν → Prop} {initial : Value} (fresh : first.Fresh initial)
    (course : Course behave allowed first m) (returned : m.Returned)
    (persists : m.world.persistence = some p)
    (passive : ∀ s ∈ m.world.store.subscriptions, s.listener.Passive behave) :
    Calm behave p m.world := by
  have coherent := (course.reachable fresh.reachable).coherent
  have idle := coherent.idle_of_returned returned
  have writers : m.Writers := by
    refine course.induct fresh.reachable fresh.writers ?_ ?_
    · intro m coherent _ writers
      exact writers.step coherent
    · intro m script _ _ writers
      exact writers.next script
  refine ⟨idle, coherent.orderly.idle idle, persists, passive, ?_⟩
  intro s member file isWriter
  obtain ⟨writer, same⟩ := writers.file s (.inl member) file isWriter
  cases persists.symm.trans same
  rfl

/-- In a store that only ever was given steps and configurations as they were built, and whose
listeners leave store and files alone, reading the settings file ends without an abort. If it fails
though the file exists, nothing in the world has changed: neither the configuration in force nor the
subscriptions nor any file, and nobody was called. If it succeeds, then reading the file once more
succeeds, too, and leaves the configuration in force and all files as they were, among them the settings
file with its text. -/
theorem Course.reading_is_atomic_and_idempotent {initial : Value} (fresh : first.Fresh initial)
    (genuine : initial.Genuine) (course : Course behave Genuine first m) (returned : m.Returned)
    (persists : m.world.persistence = some p) (tree : m.world.files.IsTree)
    (passive : ∀ s ∈ m.world.store.subscriptions, s.listener.Passive behave) :
    (∃ after outcome, Reads behave m.world after outcome ∧ outcome ≠ .aborted) ∧
      (∀ after fault, Reads behave m.world after (.failed fault) →
        m.world.files.exists? p.file = .ok true → after = m.world) ∧
      ∀ after, Reads behave m.world after .returned →
        ∃ again text, Reads behave after again .returned ∧ again.store.live = after.store.live ∧
          again.files = after.files ∧ after.files.Holds p.file text := by
  have calm := course.calm fresh returned persists passive
  have canonical := course.canonical fresh genuine fun _ permitted => permitted
  have valid := (course.reachable fresh.reachable).coherent.live.valid canonical.isApart
  obtain ⟨result, answer, reads, unchanged, settled⟩ := calm.reading canonical valid tree
  refine ⟨⟨result, _, reads, ?_⟩, ?_, ?_⟩
  · cases answer <;> exact nofun
  · intro after fault fails present
    obtain ⟨rfl, isFault⟩ := fails.unique reads
    refine unchanged ?_ present
    rintro rfl
    cases isFault
  · intro after succeeds
    obtain ⟨rfl, isReturned⟩ := succeeds.unique reads
    apply settled
    cases answer with
    | none => rfl
    | some fault => cases isReturned

/-- A subscriber that does nothing. -/
def idler : Unit → Settings → Script Unit Unit Unit := fun _ _ => .done

/-- A store that is about to get an idle subscriber and a writer of a file with this content. -/
def enrolling (content : Content) : Machine Unit Unit Unit :=
  start ⟨.ofSettings .defaults, ⟨[], [([], .directory), (["kept.yaml"], .file content)]⟩,
    some ⟨.ofText "kept.yaml", none⟩, (), [.logged .passed]⟩
    (.subscribe () fun _ => .enable fun _ => .done)

/-- The store when it has got them. -/
def keeping (content : Content) : Machine Unit Unit Unit := (enrolling content).run idler 4

theorem keeping_course (content : Content) :
    Course idler Genuine (enrolling content) (keeping content) := by
  have tries {m : Machine Unit Unit Unit} (nothing : m.tried? = none) : m.Genuine := by
    intro mutation something
    cases nothing.symm.trans something
  exact (((Course.refl.step (tries rfl)).step (tries rfl)).step (tries rfl)).step (tries rfl)

/-- One file has a level of its own, and the other one is no text. -/
def legible : Machine Unit Unit Unit := keeping (.text "mic_sensitivity: 28\n")

def garbled : Machine Unit Unit Unit := keeping (.bytes [255])

/-- The first file is read twice, and the second one is not read at all. -/
theorem reading_is_atomic_and_idempotent_keeping :
    (∃ after again text, Reads idler legible.world after .returned ∧
      Reads idler after again .returned ∧ again.store.live = after.store.live ∧
        again.files = after.files ∧ after.files.Holds (.ofText "kept.yaml") text) ∧
      Reads idler garbled.world garbled.world (.failed .notText) ∧
        ∀ after fault, Reads idler garbled.world after (.failed fault) → after = garbled.world := by
  have fresh (content : Content) : (enrolling content).Fresh .null :=
    .of Store.start_null _ (some (.ofText "kept.yaml")) () _
  have passive (content : Content) : ∀ s ∈ (keeping content).world.store.subscriptions,
      s.listener.Passive idler :=
    List.forall_mem_cons.mpr ⟨fun _ => .done, List.forall_mem_singleton.mpr trivial⟩
  have persists (content : Content) :
      (keeping content).world.persistence = some ⟨.ofText "kept.yaml", some 2⟩ := rfl
  constructor
  · have course : Course idler Genuine _ legible := keeping_course _
    have loads : (Settings.load FileTree.oneFile (.ofText "kept.yaml")).outcome.isOk = true := by
      rw [Settings.load_outcome, Settings.readFrom_eq FileTree.holds_oneFile]
      decide +kernel
    obtain ⟨s, loaded⟩ := isOk_iff.mp loads
    have calm := course.calm (fresh _) ⟨rfl, rfl⟩ (persists _) (passive _)
    obtain ⟨after, reads, _⟩ := calm.reads_of_loaded loaded
    obtain ⟨_, _, twice⟩ := course.reading_is_atomic_and_idempotent (fresh _) trivial ⟨rfl, rfl⟩
      (persists _) FileTree.isTree_oneFile (passive _)
    obtain ⟨again, text, readsAgain, same⟩ := twice after reads
    exact ⟨after, again, text, reads, readsAgain, same⟩
  · have course : Course idler Genuine _ garbled := keeping_course _
    have tree : garbled.world.files.IsTree := by decide +kernel
    have named : garbled.world.files.lookup? (.ofText "kept.yaml") = some (.file (.bytes [255])) := by
      simp only [FileTree.lookup?, FileTree.locate, String.contains_char_eq]
      decide +kernel
    obtain ⟨location, located, there⟩ := FileTree.lookup?_eq_some_iff.mp named
    have present : garbled.world.files.exists? (.ofText "kept.yaml") = .ok true := by
      rw [FileTree.exists?, located]
      exact congrArg (fun entry : Option Entry => Except.ok entry.isSome) there
    have unread : (Settings.load garbled.world.files (.ofText "kept.yaml")).outcome =
        .error .notText := by
      rw [Settings.load_outcome, Settings.readFrom, present]
      show (FileTree.read _ _ >>= _) = _
      simp only [FileTree.read, located, there]
      rfl
    obtain ⟨_, unchanged, _⟩ := course.reading_is_atomic_and_idempotent (fresh _) trivial ⟨rfl, rfl⟩
      (persists _) tree (passive _)
    exact ⟨reads_of_refused (persists _) (.inr ⟨present, unread⟩), fun after fault fails =>
      unchanged after fault fails present⟩

end Machine

end TrainingCollar
