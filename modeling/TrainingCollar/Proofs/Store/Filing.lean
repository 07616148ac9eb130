import TrainingCollar.Proofs.Store.Course

/-! # Steps and files

What a step does to the files, and to whether the settings file is kept up to date, is seen here next
to what it does for those who hear of changes. `World.Files` lists all combinations that one step can
make; that every step makes one of them is proved once, in `Machine.step_filed`.
-/

namespace TrainingCollar

/-- What one step does to the files and to the persistence. -/
inductive Filing where
  | quiet
  /-- A configuration is saved to a file. -/
  | saved (file : Path) (settings : Settings)
  /-- Files are changed behind the store's back. -/
  | edited (change : FileTree → Except Fault FileTree)
  /-- The settings file is kept up to date from now on. -/
  | enabled (p : Persistence)
  | disabled (p : Persistence)

variable {κ μ ν : Type}

namespace Filing

/-- The files afterwards. -/
@[simp] def files (filing : Filing) (t : FileTree) : FileTree :=
  match filing with
  | saved file settings => (settings.save t file).1
  | edited change => (change t).toOption.getD t
  | _ => t

/-- The persistence afterwards. -/
@[simp] def persistence (filing : Filing) (w : World κ μ ν) : Option Persistence :=
  match filing with
  | enabled p => some { p with writer := some w.store.nextHandle }
  | disabled p => some { p with writer := none }
  | _ => w.persistence

end Filing

namespace World

variable (w : World κ μ ν)

/-- All that one step can do to files, next to what happens for those who hear of changes. -/
inductive Files (w : World κ μ ν) : Option (Happening κ) → Filing → Prop
  | quiet {happening : Option (Happening κ)} :
      (∀ call, happening.bind Happening.call? = some call →
        ∃ c, call.subscription.listener = .callback c) →
      Files w happening .quiet
  | written {subscription : Subscription κ} {snapshot : Settings} {file : Path} :
      subscription.listener = .writer file →
      Files w (some (.handed ⟨subscription, snapshot⟩)) (.saved file snapshot)
  | missing {p : Persistence} :
      w.persistence = some p → Files w none (.saved p.file w.store.live)
  | edited (change : FileTree → Except Fault FileTree) : Files w none (.edited change)
  | enabled {p : Persistence} :
      w.persistence = some p → p.writer = none →
      Files w (some (.subscribed ⟨⟨w.store.nextHandle, .writer p.file⟩, w.store.live⟩)) (.enabled p)
  | disabled {p : Persistence} {happening : Option (Happening κ)} :
      w.persistence = some p → happening.bind Happening.call? = none →
      Files w happening (.disabled p)

/-- What loading or writing the settings file does to the files. -/
def reloadFiling (p : Persistence) : Filing :=
  match w.files.exists? p.file with
  | .ok false => .saved p.file w.store.live
  | _ => .quiet

/-- What the next command of a script does to the files. -/
def filing : Script κ μ ν → Filing
  | .reload _ => w.persistence.elim .quiet w.reloadFiling
  | .enable _ => w.persistence.elim .quiet fun p => if p.writer.isNone then .enabled p else .quiet
  | .disable _ => w.persistence.elim .quiet fun p => if p.writer.isNone then .quiet else .disabled p
  | .edit change _ => .edited change
  | _ => .quiet

variable {w}

theorem files_save (file : Path) (settings : Settings) :
    (w.save file settings).1.files = (settings.save w.files file).1 ∧
      (w.save file settings).1.persistence = w.persistence := by
  unfold save
  cases settings.save w.files file with
  | mk files result => cases result <;> exact ⟨rfl, rfl⟩

theorem files_unsubscribe (handle : Nat) : (w.unsubscribe handle).files = w.files ∧
    (w.unsubscribe handle).persistence = w.persistence := by
  unfold unsubscribe
  split <;> exact ⟨rfl, rfl⟩

/-- Nobody is called when a mutation is tried. -/
theorem call?_of_attempt (live : Settings) (a : Attempt) :
    (a.happening? live : Option (Happening κ)).bind Happening.call? = none := by
  unfold Attempt.happening?
  split
  · rfl
  · split <;> rfl

theorem call?_of_removal (handle : Nat) : (w.removal? handle).bind Happening.call? = none := by
  unfold removal?
  split <;> rfl

theorem call?_of_reloading (file : Path) : (w.reloading? file).bind Happening.call? = none := by
  unfold reloading?
  split
  · exact call?_of_attempt _ _
  · rfl

theorem Files.silent {happening : Option (Happening κ)}
    (silent : happening.bind Happening.call? = none) : w.Files happening .quiet :=
  .quiet fun _ called => nomatch called.symm.trans silent

section Files

variable {happening : Option (Happening κ)} {filing : Filing} {file : Path}

/-- The settings file is always the same. -/
theorem Files.persistence_file (files : w.Files happening filing) {writer : Option Nat}
    (persists : w.persistence = some ⟨file, writer⟩) :
    ∃ writer, filing.persistence w = some ⟨file, writer⟩ := by
  cases files with
  | enabled known | disabled known =>
    cases known.symm.trans persists
    exact ⟨_, rfl⟩
  | _ => exact ⟨writer, persists⟩

/-- A writer subscribes if the settings file is kept up to date from now on. -/
theorem Files.of_subscribed {call : Call κ} (files : w.Files (some (.subscribed call)) filing)
    (writes : call.subscription.listener = .writer file) :
    filing.persistence w = some ⟨file, some w.store.nextHandle⟩ := by
  cases files with
  | quiet silent =>
    obtain ⟨c, same⟩ := silent call rfl
    cases writes.symm.trans same
  | enabled =>
    cases writes
    rfl
  | disabled _ silent => cases silent

/-- The writer of the settings file was there before or subscribes now. -/
theorem Files.writer_eq (files : w.Files happening filing) {handle : Nat}
    (persists : filing.persistence w = some ⟨file, some handle⟩) :
    w.persistence = some ⟨file, some handle⟩ ∨ handle = w.store.nextHandle ∧
      happening = some (.subscribed ⟨⟨w.store.nextHandle, .writer file⟩, w.store.live⟩) := by
  cases files with
  | enabled =>
    cases persists
    exact .inr ⟨rfl, rfl⟩
  | disabled => cases persists
  | _ => exact .inl persists

end Files

theorem files_persist {effect? : Persistence → Option (Happening κ)} {filing : Persistence → Filing}
    (files : ∀ p, w.persistence = some p → w.Files (effect? p) (filing p)) :
    w.Files (w.persistence.bind effect?) (w.persistence.elim .quiet filing) := by
  cases persists : w.persistence with
  | none => exact .silent rfl
  | some p => exact files p persists

theorem files_filing (script : Script κ μ ν) : w.Files (w.happening? script) (w.filing script) := by
  cases script with
  | mutate mutation answer => exact .silent (call?_of_attempt _ _)
  | subscribe callback answer =>
    refine .quiet fun call called => ?_
    cases called
    exact ⟨callback, rfl⟩
  | unsubscribe handle rest => exact .silent (call?_of_removal handle)
  | reload answer =>
    refine files_persist fun p persists => ?_
    unfold reloadFiling
    split
    · next absent =>
      have nothing : w.reloading? p.file = none := by rw [reloading?, absent]
      rw [nothing]
      exact .missing persists
    · exact .silent (call?_of_reloading p.file)
  | enable answer =>
    refine files_persist fun p persists => ?_
    obtain ⟨file, writer⟩ := p
    cases writer with
    | none => exact .enabled persists rfl
    | some handle => exact .silent rfl
  | disable answer =>
    refine files_persist fun p persists => ?_
    obtain ⟨file, writer⟩ := p
    cases writer with
    | none => exact .silent rfl
    | some handle => exact .disabled persists (call?_of_removal handle)
  | edit change answer => exact .edited change
  | _ => exact .silent rfl

end World

namespace Machine

variable (m : Machine κ μ ν)

/-- What the next step does to the files. -/
def filing : Filing :=
  match m.control with
  | .run script => m.world.filing script
  | .deliver snapshot (subscription :: _) _ =>
    if m.world.store.isActive subscription.handle then
      match subscription.listener with
      | .writer file => .saved file snapshot
      | .callback _ => .quiet
    else .quiet
  | _ => .quiet

/-- A machine has the files and the persistence that its predecessor's filing leaves. -/
structure Filed (m : Machine κ μ ν) (filing : Filing) (next : Machine κ μ ν) : Prop where
  files : next.world.files = filing.files m.world.files
  persistence : next.world.persistence = filing.persistence m.world

variable {m} {behave : κ → Settings → Script κ μ ν}

theorem settle_filed (attempt : Attempt) (answer : Option Fault → Script κ μ ν) :
    Filed m .quiet (m.settle attempt answer) := by
  unfold settle
  dsimp only
  split
  · exact ⟨rfl, rfl⟩
  · split <;> exact ⟨rfl, rfl⟩

theorem close_filed (fault : Option Fault) : Filed m .quiet (m.close fault) := by
  unfold close
  dsimp only
  split <;> exact ⟨rfl, rfl⟩

theorem persist_filed {filing : Persistence → Filing}
    {command : Persistence → (Option Fault → Script κ μ ν) → Machine κ μ ν}
    (answer : Option Fault → Script κ μ ν)
    (filed : ∀ p, m.world.persistence = some p → Filed m (filing p) (command p answer)) :
    Filed m (m.world.persistence.elim .quiet filing) (m.persist command answer) := by
  unfold persist
  cases persists : m.world.persistence with
  | none => exact ⟨rfl, rfl⟩
  | some p => exact filed p persists

theorem reload_filed (p : Persistence) (answer : Option Fault → Script κ μ ν) :
    Filed m (m.world.reloadFiling p) (m.reload p.file answer) := by
  unfold World.reloadFiling reload
  cases m.world.files.exists? p.file with
  | error fault => exact ⟨rfl, rfl⟩
  | ok exists? =>
    cases exists? with
    | false =>
      have saved (records : List Record) := (m.world.log records).files_save p.file m.world.store.live
      exact ⟨(saved _).1, (saved _).2⟩
    | true =>
      dsimp only
      cases (Settings.load m.world.files p.file).outcome with
      | error fault => exact ⟨rfl, rfl⟩
      | ok settings =>
        obtain ⟨files, persistence⟩ := settle_filed
          (m := { m with world := m.world.log (Settings.load m.world.files p.file).records })
          (m.world.store.live.attemptReplace (.settings settings)) answer
        exact ⟨files, persistence⟩

theorem obey_filed (script : Script κ μ ν) : Filed m (m.world.filing script) (m.obey behave script) := by
  cases script with
  | done => exact close_filed none
  | fail fault => exact close_filed (some fault)
  | mutate mutation answer => exact settle_filed ..
  | unsubscribe handle rest =>
    obtain ⟨files, persistence⟩ := m.world.files_unsubscribe handle
    exact ⟨files, persistence⟩
  | reload answer => exact persist_filed answer fun p _ => reload_filed p answer
  | enable answer =>
    refine persist_filed answer fun p _ => ?_
    obtain ⟨file, writer⟩ := p
    cases writer <;> exact ⟨rfl, rfl⟩
  | disable answer =>
    refine persist_filed answer fun p _ => ?_
    obtain ⟨file, writer⟩ := p
    cases writer with
    | none => exact ⟨rfl, rfl⟩
    | some handle => exact ⟨(m.world.files_unsubscribe handle).1, rfl⟩
  | edit change answer =>
    simp only [World.filing, obey, edit]
    cases changed : change m.world.files <;> exact ⟨by rw [Filing.files, changed]; rfl, rfl⟩
  | _ => exact ⟨rfl, rfl⟩

theorem call_filed {snapshot : Settings} {subscription : Subscription κ}
    {waiting : List (Subscription κ)} {rest : Script κ μ ν}
    (serving : m.control = .deliver snapshot (subscription :: waiting) rest) :
    m.world.Files m.happening? m.filing ∧
      Filed m m.filing (m.call behave snapshot subscription waiting rest) := by
  obtain ⟨handle, listener⟩ := subscription
  simp only [happening?, filing, call, serving]
  split
  · cases listener with
    | callback c =>
      refine ⟨.quiet fun call called => ?_, rfl, rfl⟩
      cases called
      exact ⟨c, rfl⟩
    | writer file =>
      have saved (event : Event κ ν) := (m.world.happen event).files_save file snapshot
      exact ⟨.written rfl, (saved _).1, (saved _).2⟩
  · exact ⟨.silent rfl, rfl, rfl⟩

/-- What a step does to files and to the persistence, and what it does at the same time for those who
hear of changes. -/
theorem step_filed (behave : κ → Settings → Script κ μ ν) (m : Machine κ μ ν) :
    m.world.Files m.happening? m.filing ∧ Filed m m.filing (m.step behave) := by
  cases control : m.control with
  | run script =>
    simp only [happening?, filing, step, control]
    exact ⟨m.world.files_filing script, obey_filed script⟩
  | deliver snapshot waiting rest =>
    cases waiting with
    | nil =>
      simp only [happening?, filing, step, control]
      exact ⟨.silent rfl, rfl, rfl⟩
    | cons subscription waiting =>
      simp only [step, control]
      exact call_filed control
  | drain rest =>
    simp only [happening?, filing, step, control]
    split
    · next empty =>
      rw [empty]
      exact ⟨.silent rfl, rfl, rfl⟩
    · next waits =>
      rw [waits]
      exact ⟨.silent rfl, rfl, rfl⟩
  | ended outcome =>
    simp only [happening?, filing, step, control]
    exact ⟨.silent rfl, rfl, rfl⟩

end Machine

end TrainingCollar
