import TrainingCollar.Proofs.Store.History

/-! # The trace has no influence

A run writes its trace and never reads it. Two machines that differ only in their traces therefore go
through the same steps, and the same happens in them.
-/

namespace TrainingCollar

variable {κ μ ν : Type}

/-- The world with another trace. -/
def World.retraced (w : World κ μ ν) (trace : List (Event κ ν)) : World κ μ ν :=
  { w with trace := trace }

/-- Two worlds that differ in their traces only. -/
def World.Alike (w v : World κ μ ν) : Prop := ∃ trace, v = w.retraced trace

namespace World

variable {w v : World κ μ ν}

theorem Alike.log (alike : w.Alike v) (records others : List Record) :
    (w.log records).Alike (v.log others) := by
  obtain ⟨trace, rfl⟩ := alike
  exact ⟨_, rfl⟩

theorem Alike.save (alike : w.Alike v) (file : Path) (settings : Settings) :
    (w.save file settings).1.Alike (v.save file settings).1 ∧
      (v.save file settings).2 = (w.save file settings).2 := by
  obtain ⟨trace, rfl⟩ := alike
  simp only [World.save, retraced]
  cases settings.save w.files file with
  | mk files result => cases result <;> exact ⟨⟨_, rfl⟩, rfl⟩

theorem Alike.unsubscribe (alike : w.Alike v) (handle : Nat) :
    (w.unsubscribe handle).Alike (v.unsubscribe handle) := by
  obtain ⟨trace, rfl⟩ := alike
  by_cases active : w.store.isActive handle = true
  · have same : (w.retraced trace).store.isActive handle = true := active
    rw [unsubscribe, unsubscribe, if_pos active, if_pos same]
    exact ⟨_, rfl⟩
  · have same : ¬(w.retraced trace).store.isActive handle = true := active
    rw [unsubscribe, unsubscribe, if_neg active, if_neg same]
    exact ⟨trace, rfl⟩

end World

namespace Machine

/-- Two machines that differ in their traces only. -/
def Alike (m other : Machine κ μ ν) : Prop :=
  ∃ trace, other = { m with world := m.world.retraced trace }

variable {behave : κ → Settings → Script κ μ ν} {m other : Machine κ μ ν}

theorem Alike.of {world otherWorld : World κ μ ν} (worlds : world.Alike otherWorld)
    (stack : List (Frame κ μ ν)) (control : Control κ μ ν) :
    Alike ⟨world, stack, control⟩ ⟨otherWorld, stack, control⟩ := by
  obtain ⟨trace, rfl⟩ := worlds
  exact ⟨trace, rfl⟩

theorem Alike.world (alike : m.Alike other) : m.world.Alike other.world := by
  obtain ⟨trace, rfl⟩ := alike
  exact ⟨trace, rfl⟩

theorem Alike.store (alike : m.Alike other) : other.world.store = m.world.store := by
  obtain ⟨trace, rfl⟩ := alike
  rfl

theorem Alike.goOn (alike : m.Alike other) {world otherWorld : World κ μ ν}
    (worlds : world.Alike otherWorld) (script : Script κ μ ν) :
    (m.goOn world script).Alike (other.goOn otherWorld script) := by
  obtain ⟨trace, rfl⟩ := alike
  exact .of worlds m.stack _

/-- Attempts may leave different records. -/
theorem Alike.settle (alike : m.Alike other) {attempt otherAttempt : Attempt}
    (live : otherAttempt.live = attempt.live) (outcome : otherAttempt.outcome = attempt.outcome)
    (answer : Option Fault → Script κ μ ν) :
    (m.settle attempt answer).Alike (other.settle otherAttempt answer) := by
  obtain ⟨trace, rfl⟩ := alike
  obtain ⟨records, _, _⟩ := attempt
  obtain ⟨others, changed, result⟩ := otherAttempt
  obtain rfl : changed = _ := live
  obtain rfl : result = _ := outcome
  obtain ⟨⟨⟨_, _, _, _, notifying⟩, _, _, _, _⟩, _, _⟩ := m
  cases result with
  | error fault => exact ⟨_, rfl⟩
  | ok done => cases notifying <;> exact ⟨_, rfl⟩

theorem Alike.reload (alike : m.Alike other) (file : Path) (answer : Option Fault → Script κ μ ν) :
    (m.reload file answer).Alike (other.reload file answer) := by
  have files : other.world.files = m.world.files := by
    obtain ⟨trace, rfl⟩ := alike
    rfl
  unfold Machine.reload
  rw [files, alike.store]
  split
  · exact alike.goOn alike.world _
  · let missing : Record := ⟨.persistence, .info,
      "No settings file at " ++ file.text ++ ", writing current settings"⟩
    obtain ⟨worlds, fault⟩ :=
      (alike.world.log [missing] [missing]).save file m.world.store.live
    dsimp only
    rw [fault]
    exact alike.goOn worlds _
  · let records := (Settings.load m.world.files file).records
    have logged := alike.world.log records records
    dsimp only
    split
    · exact alike.goOn logged _
    · next settings _ =>
      have after : Alike { m with world := m.world.log records }
          { other with world := other.world.log records } := by
        obtain ⟨trace, rfl⟩ := alike
        exact .of logged m.stack m.control
      have same : (other.world.log records).store = m.world.store := alike.store
      refine after.settle ?_ ?_ answer
      · rw [same]
        rfl
      · rw [same]
        rfl

theorem Alike.enable (alike : m.Alike other) (p : Persistence)
    (answer : Option Fault → Script κ μ ν) :
    (m.enable p answer).Alike (other.enable p answer) := by
  obtain ⟨trace, rfl⟩ := alike
  unfold Machine.enable
  cases p.writer <;> exact ⟨_, rfl⟩

theorem Alike.disable (alike : m.Alike other) (p : Persistence)
    (answer : Option Fault → Script κ μ ν) :
    (m.disable p answer).Alike (other.disable p answer) := by
  unfold Machine.disable
  cases p.writer with
  | none => exact alike.goOn alike.world _
  | some handle =>
    obtain ⟨trace, world⟩ := alike.world.unsubscribe handle
    dsimp only
    rw [world]
    exact alike.goOn ⟨trace, rfl⟩ _

theorem Alike.persist (alike : m.Alike other)
    {command otherCommand : Persistence → (Option Fault → Script κ μ ν) → Machine κ μ ν}
    (answer : Option Fault → Script κ μ ν)
    (commands : ∀ p, (command p answer).Alike (otherCommand p answer)) :
    (m.persist command answer).Alike (other.persist otherCommand answer) := by
  have same : other.world.persistence = m.world.persistence := by
    obtain ⟨trace, rfl⟩ := alike
    rfl
  unfold Machine.persist
  rw [same]
  cases m.world.persistence with
  | none => exact alike.goOn alike.world _
  | some p => exact commands p

theorem Alike.edit (alike : m.Alike other) (change : FileTree → Except Fault FileTree)
    (answer : Option Fault → Script κ μ ν) :
    (m.edit change answer).Alike (other.edit change answer) := by
  obtain ⟨trace, rfl⟩ := alike
  simp only [Machine.edit, World.retraced]
  cases change m.world.files <;> exact ⟨_, rfl⟩

theorem Alike.close (alike : m.Alike other) (fault : Option Fault) :
    (m.close fault).Alike (other.close fault) := by
  obtain ⟨trace, rfl⟩ := alike
  obtain ⟨world, stack, control⟩ := m
  cases stack with
  | nil => exact ⟨trace, rfl⟩
  | cons frame rest => cases frame <;> exact ⟨_, rfl⟩

theorem Alike.call (alike : m.Alike other) (snapshot : Settings) (subscription : Subscription κ)
    (waiting : List (Subscription κ)) (next : Script κ μ ν) :
    (m.call behave snapshot subscription waiting next).Alike
      (other.call behave snapshot subscription waiting next) := by
  have frames : other.stack = m.stack := by
    obtain ⟨trace, rfl⟩ := alike
    rfl
  unfold Machine.call
  rw [alike.store, frames]
  split
  · have called : (m.world.happen (.called subscription.handle subscription.listener snapshot)).Alike
        (other.world.happen (.called subscription.handle subscription.listener snapshot)) := by
      obtain ⟨trace, rfl⟩ := alike
      exact ⟨_, rfl⟩
    split
    · exact .of called _ _
    · next file _ =>
      obtain ⟨worlds, fault⟩ := called.save file snapshot
      dsimp only
      rw [fault]
      exact .of (worlds.log _ _) _ _
  · obtain ⟨trace, rfl⟩ := alike
    exact ⟨trace, rfl⟩

theorem Alike.obey (alike : m.Alike other) (script : Script κ μ ν) :
    (m.obey behave script).Alike (other.obey behave script) := by
  cases script with
  | done => exact alike.close none
  | fail fault => exact alike.close (some fault)
  | mutate mutation answer =>
    have lives : other.world.store.live = m.world.store.live := congrArg Store.live alike.store
    refine alike.settle ?_ ?_ answer
    · rw [lives]
    · rw [lives]
  | unsubscribe handle next => exact alike.goOn (alike.world.unsubscribe handle) next
  | reload answer => exact alike.persist answer fun p => alike.reload p.file answer
  | enable answer => exact alike.persist answer fun p => alike.enable p answer
  | disable answer => exact alike.persist answer fun p => alike.disable p answer
  | edit change answer => exact alike.edit change answer
  | _ =>
    obtain ⟨trace, rfl⟩ := alike
    exact ⟨_, rfl⟩

theorem Alike.step (alike : m.Alike other) : (m.step behave).Alike (other.step behave) := by
  have controls : other.control = m.control := by
    obtain ⟨trace, rfl⟩ := alike
    rfl
  unfold Machine.step
  rw [controls, alike.store]
  cases m.control with
  | run script => exact alike.obey script
  | deliver snapshot waiting next =>
    cases waiting with
    | nil =>
      obtain ⟨trace, rfl⟩ := alike
      exact ⟨trace, rfl⟩
    | cons subscription waiting => exact alike.call snapshot subscription waiting next
  | drain next =>
    obtain ⟨trace, rfl⟩ := alike
    cases m.world.store.pending <;> exact ⟨trace, rfl⟩
  | ended outcome => exact alike

theorem Alike.happening? (alike : m.Alike other) : other.happening? = m.happening? := by
  obtain ⟨trace, rfl⟩ := alike
  rfl

/-- The same happens in runs of machines that are alike, and they stay alike. -/
theorem Alike.run (alike : m.Alike other) (steps : Nat) :
    other.history behave steps = m.history behave steps ∧
      (m.run behave steps).Alike (other.run behave steps) := by
  induction steps generalizing m other with
  | zero => exact ⟨rfl, alike⟩
  | succ steps ih =>
    obtain ⟨histories, after⟩ := ih alike.step
    rw [run_succ, run_succ, history, history, alike.happening?, histories]
    exact ⟨rfl, after⟩

end Machine

end TrainingCollar
