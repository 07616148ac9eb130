import TrainingCollar.Proofs.Store.Recovery
import TrainingCollar.Proofs.Store.Session

/-! # Mutations return

A script is finite, whatever it is answered, but its callbacks may give each other work for ever: every
configuration that is put in force is handed out, and every subscription that is made is called. If only
so many of both are made in the whole run, the run comes to an end. Each of them costs two, of which a
configuration that is put in force gives one back to what is pending, where it pays for its hand-out. So
what can still be spent and what is pending together, the *credit*, grow less with each of the three, and
between them the scripts and the lists of those who wait grow shorter.

`Machine.Thrifty` says that a credit lasts for the rest of a run, and `Machine.concludes` that every script
and every hand-out is then over at some point, by induction on the credit.
-/

namespace TrainingCollar

variable {κ μ ν : Type}

/-! ## The next command of a script -/

/-- A script goes on with another one when its next command has been answered. -/
inductive Script.Part : Script κ μ ν → Script κ μ ν → Prop
  | mutate (mutation : Mutation) (next : Option Fault → Script κ μ ν) (fault : Option Fault) :
      Part (next fault) (.mutate mutation next)
  | subscribe (callback : κ) (next : Nat → Script κ μ ν) (handle : Nat) :
      Part (next handle) (.subscribe callback next)
  | unsubscribe (handle : Nat) (next : Script κ μ ν) : Part next (.unsubscribe handle next)
  | look (next : Settings → Script κ μ ν) (settings : Settings) : Part (next settings) (.look next)
  | reload (next : Option Fault → Script κ μ ν) (fault : Option Fault) :
      Part (next fault) (.reload next)
  | enable (next : Option Fault → Script κ μ ν) (fault : Option Fault) :
      Part (next fault) (.enable next)
  | disable (next : Option Fault → Script κ μ ν) (fault : Option Fault) :
      Part (next fault) (.disable next)
  | edit (change : FileTree → Except Fault FileTree) (next : Option Fault → Script κ μ ν)
      (fault : Option Fault) : Part (next fault) (.edit change next)
  | recollect (next : μ → Script κ μ ν) (memory : μ) : Part (next memory) (.recall next)
  | remember (memory : μ) (next : Script κ μ ν) : Part next (.remember memory next)
  | note (text : ν) (next : Script κ μ ν) : Part next (.note text next)

/-- Whatever the answers are, a script has only so many commands. -/
theorem Script.part_wellFounded : WellFounded (Part : Script κ μ ν → Script κ μ ν → Prop) := by
  constructor
  intro script
  induction script with
  | done | fail | abort => exact ⟨_, nofun⟩
  | mutate _ _ ih | subscribe _ _ ih | look _ ih | reload _ ih | enable _ ih | disable _ ih | edit _ _ ih
  | «recall» _ ih =>
    constructor
    rintro _ ⟨⟩
    exact ih _
  | unsubscribe _ _ ih | remember _ _ ih | note _ _ ih =>
    constructor
    rintro _ ⟨⟩
    exact ih

namespace Machine

variable {behave : κ → Settings → Script κ μ ν} {m : Machine κ μ ν}

/-- What becomes of a script with its next command: it goes on with a part of itself, perhaps when all
that is pending has been handed out or when a callback that it subscribed has been called. -/
inductive Proceeds (behave : κ → Settings → Script κ μ ν) (m : Machine κ μ ν) (rest : Script κ μ ν) :
    Machine κ μ ν → Prop
  | goesOn (after : World κ μ ν) : Proceeds behave m rest ⟨after, m.stack, .run rest⟩
  | drains (after : World κ μ ν) {settings : Settings}
      (accepts : m.happening? = some (.accepted settings)) :
      Proceeds behave m rest ⟨after, m.stack, .drain rest⟩
  | calls (after : World κ μ ν) (handle : Nat) (c : κ) (snapshot : Settings) {call : Call κ}
      (subscribes : m.happening? = some (.subscribed call)) :
      Proceeds behave m rest ⟨after, .subscribing handle rest :: m.stack, .run (behave c snapshot)⟩

/-- After an attempt the script goes on, at once or when all that is pending has been handed out. -/
theorem proceeds_of_settle {attempt : Attempt} {live : Settings} {next : Option Fault → Script κ μ ν}
    {other : Machine κ μ ν} (stack : other.stack = m.stack)
    (happens : m.happening? = attempt.happening? live) :
    ∃ fault, Proceeds behave m (next fault) (other.settle attempt next) := by
  obtain ⟨world, _, control⟩ := other
  obtain rfl : _ = m.stack := stack
  cases result : attempt.outcome with
  | error fault =>
    simp only [settle, result]
    exact ⟨_, .goesOn _⟩
  | ok =>
    rw [Attempt.happening?, result] at happens
    simp only [settle, result]
    split
    · exact ⟨_, .goesOn _⟩
    · exact ⟨_, .drains _ happens⟩

theorem proceeds_of_reload {file : Path} {next : Option Fault → Script κ μ ν}
    (happens : m.happening? = m.world.reloading? file) :
    ∃ fault, Proceeds behave m (next fault) (m.reload file next) := by
  cases present : m.world.files.exists? file with
  | error fault =>
    simp only [reload, present]
    exact ⟨_, .goesOn _⟩
  | ok exists? =>
    cases exists? with
    | false =>
      simp only [reload, present]
      exact ⟨_, .goesOn _⟩
    | true =>
      cases loaded : (Settings.load m.world.files file).outcome with
      | error fault =>
        simp only [reload, present, loaded]
        exact ⟨_, .goesOn _⟩
      | ok settings =>
        simp only [World.reloading?, present, loaded] at happens
        simp only [reload, present, loaded]
        exact proceeds_of_settle rfl happens

theorem proceeds_of_persist {command : Persistence → (Option Fault → Script κ μ ν) → Machine κ μ ν}
    {next : Option Fault → Script κ μ ν} (proceeds : ∀ p, m.world.persistence = some p →
      ∃ fault, Proceeds behave m (next fault) (command p next)) :
    ∃ fault, Proceeds behave m (next fault) (m.persist command next) := by
  unfold persist
  split
  · next p isKept => exact proceeds p isKept
  · exact ⟨_, .goesOn _⟩

theorem proceeds_of_enable (p : Persistence) {next : Option Fault → Script κ μ ν} :
    ∃ fault, Proceeds behave m (next fault) (m.enable p next) := by
  unfold enable
  split <;> exact ⟨_, .goesOn _⟩

theorem proceeds_of_disable (p : Persistence) {next : Option Fault → Script κ μ ν} :
    ∃ fault, Proceeds behave m (next fault) (m.disable p next) := by
  unfold disable
  split <;> exact ⟨_, .goesOn _⟩

theorem proceeds_of_edit (change : FileTree → Except Fault FileTree)
    {next : Option Fault → Script κ μ ν} :
    ∃ fault, Proceeds behave m (next fault) (m.edit change next) := by
  unfold edit
  split <;> exact ⟨_, .goesOn _⟩

/-- All that a step can make of a script that is not at its end and does not abort. -/
theorem proceeds_of_script (behave : κ → Settings → Script κ μ ν) (world : World κ μ ν)
    (stack : List (Frame κ μ ν)) {script : Script κ μ ν} (goesOn : script.end? = none)
    (unaborted : script ≠ .abort) : ∃ rest, rest.Part script ∧
      Proceeds behave ⟨world, stack, .run script⟩ rest (step behave ⟨world, stack, .run script⟩) := by
  have happens : happening? ⟨world, stack, .run script⟩ = world.happening? script := rfl
  cases script with
  | done | fail => cases goesOn
  | abort => exact absurd rfl unaborted
  | mutate mutation next =>
    obtain ⟨fault, proceeds⟩ := proceeds_of_settle rfl happens
    exact ⟨_, .mutate mutation next fault, proceeds⟩
  | subscribe callback next =>
    exact ⟨_, .subscribe callback next _, .calls _ _ callback _ happens⟩
  | unsubscribe handle next => exact ⟨_, .unsubscribe handle next, .goesOn _⟩
  | look next => exact ⟨_, .look next _, .goesOn _⟩
  | reload next =>
    obtain ⟨fault, proceeds⟩ := proceeds_of_persist fun p isKept =>
      proceeds_of_reload (happens.trans (congrArg (Option.bind · _) isKept))
    exact ⟨_, .reload next fault, proceeds⟩
  | enable next =>
    obtain ⟨fault, proceeds⟩ := proceeds_of_persist fun p _ => proceeds_of_enable p
    exact ⟨_, .enable next fault, proceeds⟩
  | disable next =>
    obtain ⟨fault, proceeds⟩ := proceeds_of_persist fun p _ => proceeds_of_disable p
    exact ⟨_, .disable next fault, proceeds⟩
  | edit change next =>
    obtain ⟨fault, proceeds⟩ := proceeds_of_edit change
    exact ⟨_, .edit change next fault, proceeds⟩
  | «recall» next => exact ⟨_, .recollect next _, .goesOn _⟩
  | remember memory next => exact ⟨_, .remember memory next, .goesOn _⟩
  | note text next => exact ⟨_, .note text next, .goesOn _⟩

end Machine

/-! ## What has been spent -/

/-- The call on subscribing, if a subscription is made. -/
@[simp] def Happening.subscribed? : Happening κ → Option (Call κ)
  | .subscribed call => some call
  | _ => none

/-- The calls on subscribing, one for each subscription that is made. -/
def subscribedIn (happenings : List (Happening κ)) : List (Call κ) :=
  happenings.filterMap Happening.subscribed?

/-- What is spent: two for each configuration that is put in force and for each subscription. -/
def expense (happenings : List (Happening κ)) : Nat :=
  2 * (acceptedIn happenings).length + 2 * (subscribedIn happenings).length

theorem expense_append (first second : List (Happening κ)) :
    expense (first ++ second) = expense first + expense second := by
  simp only [expense, acceptedIn_append, subscribedIn, List.filterMap_append, List.length_append]
  omega

namespace Delivery

variable {d middle last : Delivery κ} {happening : Option (Happening κ)}
  {happenings : List (Happening κ)}

/-- What is put in force waits behind what is pending, and what waits longest is handed out. -/
theorem Step.pending_append (step : Step d happening middle) (unaborted : happening ≠ some .aborted) :
    d.store.pending ++ acceptedIn happening.toList =
      begunIn happening.toList ++ middle.store.pending := by
  cases step with
  | begun waits => exact (List.append_nil _).trans waits
  | rested empty => exact (List.append_nil _).trans empty
  | aborted => exact absurd rfl unaborted
  | queued | opened => rfl
  | _ => exact List.append_nil _

/-- Hand-outs begin in the order in which configurations are put in force, one for each. -/
theorem Path.pending_append (path : Path d happenings last) (unaborted : .aborted ∉ happenings) :
    d.store.pending ++ acceptedIn happenings = begunIn happenings ++ last.store.pending := by
  induction path with
  | nil => exact List.append_nil _
  | @cons d middle last happening happenings step _ ih =>
    obtain ⟨now, later⟩ := unaborted_cons unaborted
    calc d.store.pending ++ acceptedIn (happening.toList ++ happenings)
      _ = d.store.pending ++ acceptedIn happening.toList ++ acceptedIn happenings := by
        rw [acceptedIn_append, List.append_assoc]
      _ = begunIn happening.toList ++ (middle.store.pending ++ acceptedIn happenings) := by
        rw [step.pending_append now, List.append_assoc]
      _ = begunIn (happening.toList ++ happenings) ++ last.store.pending := by
        rw [ih later, begunIn_append, List.append_assoc]

end Delivery

namespace Machine

variable {behave : κ → Settings → Script κ μ ν} {m later : Machine κ μ ν} {credit : Nat}

/-- The credit lasts for the rest of the run, which is not aborted. -/
structure Thrifty (behave : κ → Settings → Script κ μ ν) (credit : Nat) (m : Machine κ μ ν) : Prop where
  coherent : m.Coherent
  unaborted : ∀ steps, .aborted ∉ m.history behave steps
  covers : ∀ steps, m.world.store.pending.length + expense (m.history behave steps) ≤ credit

namespace Thrifty

theorem happening?_ne_aborted (thrifty : m.Thrifty behave credit) : m.happening? ≠ some .aborted := by
  intro aborts
  apply thrifty.unaborted 1
  rw [history, aborts]
  exact List.mem_cons_self

/-- Whatever is put in force, subscribed or handed out is paid for. -/
theorem covers_step (thrifty : m.Thrifty behave credit) (steps : Nat) :
    (m.step behave).world.store.pending.length + expense ((m.step behave).history behave steps) +
      ((acceptedIn m.happening?.toList).length + (begunIn m.happening?.toList).length +
        2 * (subscribedIn m.happening?.toList).length) ≤ credit := by
  have delivery := (thrifty.coherent.advance behave).delivery
  have pending := congrArg List.length (delivery.pending_append thrifty.happening?_ne_aborted)
  have covers := thrifty.covers (steps + 1)
  rw [history, expense_append, expense] at covers
  simp only [List.length_append, Machine.delivery] at pending
  omega

theorem step (thrifty : m.Thrifty behave credit) : (m.step behave).Thrifty behave credit where
  coherent := thrifty.coherent.step
  unaborted steps aborts := thrifty.unaborted (steps + 1) (List.mem_append_right _ aborts)
  covers steps := Nat.le_trans (Nat.le_add_right ..) (thrifty.covers_step steps)

/-- After something that costs, less credit is enough. -/
theorem pay (thrifty : m.Thrifty behave credit) {happening : Happening κ}
    (happens : m.happening? = some happening)
    (costs : 0 < (acceptedIn [happening]).length + (begunIn [happening]).length +
      2 * (subscribedIn [happening]).length) :
    ∃ less < credit, (m.step behave).Thrifty behave less := by
  have covers := thrifty.covers_step
  rw [happens, Option.toList_some] at covers
  have first := covers 0
  refine ⟨credit - 1, by omega, thrifty.step.coherent, thrifty.step.unaborted, fun steps => ?_⟩
  have rest := covers steps
  omega

theorem comesTo (thrifty : m.Thrifty behave credit) (comes : m.ComesTo behave later) :
    later.Thrifty behave credit := by
  obtain ⟨steps, rfl⟩ := comes
  induction steps generalizing m with
  | zero => exact thrifty
  | succ steps ih =>
    rw [run_succ]
    exact ih thrifty.step

end Thrifty

/-! ## Scripts and hand-outs are over at some point -/

/-- While the credit lasts, every script comes to its end, and all that is pending is handed out. -/
structure Concludes (behave : κ → Settings → Script κ μ ν) (credit : Nat) : Prop where
  script : ∀ world stack script, Thrifty behave credit ⟨world, stack, .run script⟩ →
    ∃ after ending, Script.end? ending ≠ none ∧
      ComesTo behave ⟨world, stack, .run script⟩ ⟨after, stack, .run ending⟩
  drain : ∀ world stack next, Thrifty behave credit ⟨world, stack, .drain next⟩ →
    ∃ after, ComesTo behave ⟨world, stack, .drain next⟩ ⟨after, stack, .run next⟩

/-- A callback that is at its end returns to what waits for it. -/
theorem comesTo_of_ending {world : World κ μ ν} {frame : Frame κ μ ν} {stack : List (Frame κ μ ν)}
    {ending : Script κ μ ν} (ends : ending.end? ≠ none) :
    ∃ after, ComesTo behave ⟨world, frame :: stack, .run ending⟩ ⟨after, stack, frame.resumption⟩ := by
  cases ending with
  | done | fail => cases frame <;> exact ⟨_, .step .refl⟩
  | _ => exact absurd rfl ends

/-- A subscription has its turn: it is passed over or served at once, or its callback is called. -/
theorem step_of_waiting (behave : κ → Settings → Script κ μ ν) (world : World κ μ ν)
    (stack : List (Frame κ μ ν)) (snapshot : Settings) (s : Subscription κ)
    (waiting : List (Subscription κ)) (next : Script κ μ ν) : ∃ after : World κ μ ν,
      step behave ⟨world, stack, .deliver snapshot (s :: waiting) next⟩ =
          ⟨after, stack, .deliver snapshot waiting next⟩ ∨
        ∃ c, step behave ⟨world, stack, .deliver snapshot (s :: waiting) next⟩ =
          ⟨after, .fanOut s.handle snapshot waiting next :: stack, .run (behave c snapshot)⟩ := by
  simp only [step, call]
  split
  · split
    · next c _ => exact ⟨_, .inr ⟨c, rfl⟩⟩
    · exact ⟨_, .inl rfl⟩
  · exact ⟨_, .inl rfl⟩

namespace Concludes

variable (concludes : Concludes behave credit) {stack : List (Frame κ μ ν)}
include concludes

/-- A callback comes to its end and returns to what waits for it. -/
theorem callback {world : World κ μ ν} {frame : Frame κ μ ν} {script : Script κ μ ν}
    (thrifty : Thrifty behave credit ⟨world, frame :: stack, .run script⟩) :
    ∃ after, ComesTo behave ⟨world, frame :: stack, .run script⟩ ⟨after, stack, frame.resumption⟩ := by
  obtain ⟨middle, ending, ends, comes⟩ := concludes.script _ _ _ thrifty
  obtain ⟨after, returns⟩ := comesTo_of_ending ends
  exact ⟨after, comes.trans returns⟩

/-- All that wait have their turn. -/
theorem deliver {world : World κ μ ν} {snapshot : Settings} {waiting : List (Subscription κ)}
    {next : Script κ μ ν} (thrifty : Thrifty behave credit ⟨world, stack, .deliver snapshot waiting next⟩) :
    ∃ after, ComesTo behave ⟨world, stack, .deliver snapshot waiting next⟩ ⟨after, stack, .drain next⟩ := by
  induction waiting generalizing world with
  | nil => exact ⟨world, .step .refl⟩
  | cons s waiting ih =>
    have goesOn := thrifty.step
    obtain ⟨middle, same | ⟨c, same⟩⟩ := step_of_waiting behave world stack snapshot s waiting next
    · rw [same] at goesOn
      obtain ⟨after, comes⟩ := ih goesOn
      exact ⟨after, .step (same ▸ comes)⟩
    · rw [same] at goesOn
      obtain ⟨called, returns⟩ := concludes.callback goesOn
      obtain ⟨after, comes⟩ := ih (goesOn.comesTo returns)
      exact ⟨after, .step (same ▸ returns.trans comes)⟩

end Concludes

section Induction

variable {world : World κ μ ν} {stack : List (Frame κ μ ν)}
  (cheaper : ∀ less < credit, Concludes behave less)
include cheaper

/-- The hand-out of what is pending is over if those are that less credit is enough for. -/
theorem exists_drained {next : Script κ μ ν} (thrifty : Thrifty behave credit ⟨world, stack, .drain next⟩) :
    ∃ after, ComesTo behave ⟨world, stack, .drain next⟩ ⟨after, stack, .run next⟩ := by
  cases waits : world.store.pending with
  | nil => exact ⟨_, comesTo_of_drained waits⟩
  | cons snapshot pending =>
    have begins : happening? ⟨world, stack, .drain next⟩ = some (.begun snapshot) := by
      simp only [happening?, waits, List.head?_cons, Option.map_some]
    obtain ⟨less, below, paid⟩ := thrifty.pay begins Nat.one_pos
    rw [step_of_pending waits] at paid
    obtain ⟨middle, delivers⟩ := (cheaper less below).deliver paid
    obtain ⟨after, drains⟩ := (cheaper less below).drain _ _ _ (paid.comesTo delivers)
    refine ⟨after, .step ?_⟩
    rw [step_of_pending waits]
    exact delivers.trans drains

/-- A script comes to its end, if whatever it waits for does. -/
theorem exists_ending {script : Script κ μ ν} (thrifty : Thrifty behave credit ⟨world, stack, .run script⟩) :
    ∃ after ending, Script.end? ending ≠ none ∧
      ComesTo behave ⟨world, stack, .run script⟩ ⟨after, stack, .run ending⟩ := by
  -- A command that costs leaves less credit for the rest of the script, any other a shorter script.
  induction script using Script.part_wellFounded.induction generalizing world with
  | h script ih =>
    by_cases goesOn : script.end? = none
    case neg => exact ⟨world, script, goesOn, .refl⟩
    have unaborted : script ≠ .abort := by
      rintro rfl
      exact thrifty.happening?_ne_aborted rfl
    obtain ⟨rest, part, proceeds⟩ := proceeds_of_script behave world stack goesOn unaborted
    generalize same : step behave ⟨world, stack, .run script⟩ = next at proceeds
    cases proceeds with
    | goesOn middle =>
      obtain ⟨after, ending, ends, comes⟩ := ih rest part (same ▸ thrifty.step)
      exact ⟨after, ending, ends, .step (same ▸ comes)⟩
    | drains middle accepts =>
      obtain ⟨less, below, paid⟩ := thrifty.pay accepts Nat.one_pos
      rw [same] at paid
      obtain ⟨drained, drains⟩ := (cheaper less below).drain _ _ _ paid
      obtain ⟨after, ending, ends, comes⟩ := (cheaper less below).script _ _ _ (paid.comesTo drains)
      exact ⟨after, ending, ends, .step (same ▸ drains.trans comes)⟩
    | calls middle handle c snapshot subscribes =>
      obtain ⟨less, below, paid⟩ := thrifty.pay subscribes Nat.two_pos
      rw [same] at paid
      obtain ⟨called, returns⟩ := (cheaper less below).callback paid
      obtain ⟨after, ending, ends, comes⟩ := (cheaper less below).script _ _ _ (paid.comesTo returns)
      exact ⟨after, ending, ends, .step (same ▸ returns.trans comes)⟩

end Induction

theorem concludes (behave : κ → Settings → Script κ μ ν) (credit : Nat) : Concludes behave credit := by
  induction credit using Nat.strongRecOn with
  | ind credit cheaper =>
    exact ⟨fun _ _ _ => exists_ending cheaper, fun _ _ _ => exists_drained cheaper⟩

/-! ## Runs of mutations -/

/-- In the rest of the run at most so many configurations are put in force and so many subscriptions
made. -/
structure Bounded (behave : κ → Settings → Script κ μ ν) (changes subscriptions : Nat)
    (m : Machine κ μ ν) : Prop where
  changes : ∀ steps, (acceptedIn (m.history behave steps)).length ≤ changes
  subscriptions : ∀ steps, (subscribedIn (m.history behave steps)).length ≤ subscriptions

section Ends

variable {steps : Nat}

/-- Nothing happens after the end of a run. -/
theorem history_of_ended (ended : m.outcome?.isSome) (steps : Nat) : m.history behave steps = [] := by
  induction steps with
  | zero => rfl
  | succ steps ih =>
    have nothing : m.happening? = none := by
      cases control : m.control with
      | ended outcome => simp only [happening?, control]
      | _ => simp [outcome?, control] at ended
    rw [history, nothing, step_of_ended behave ended, ih]
    rfl

/-- What happens in a run is what happens up to its end, or a part of it. -/
theorem history_extends (ended : (m.run behave steps).outcome?.isSome) (other : Nat) :
    m.history behave other <+: m.history behave steps := by
  induction steps generalizing m other with
  | zero => exact history_of_ended (m := m) ended other ▸ List.nil_prefix
  | succ steps ih =>
    cases other with
    | zero => exact List.nil_prefix
    | succ other =>
      rw [run_succ] at ended
      exact (List.prefix_append_right_inj _).mpr (ih ended other)

/-- A run that ends is bounded by what has happened by then. -/
theorem Bounded.of_ended {changes subscriptions : Nat} (ended : (m.run behave steps).outcome?.isSome)
    (changed : (acceptedIn (m.history behave steps)).length ≤ changes)
    (subscribed : (subscribedIn (m.history behave steps)).length ≤ subscriptions) :
    m.Bounded behave changes subscriptions where
  changes other := Nat.le_trans ((history_extends ended other).filterMap _).length_le changed
  subscriptions other := Nat.le_trans ((history_extends ended other).filterMap _).length_le subscribed

/-- A run that has ended before is where it was then. -/
theorem run_of_le {fewer : Nat} (ended : (m.run behave fewer).outcome?.isSome) (le : fewer ≤ steps) :
    m.run behave steps = m.run behave fewer := by
  induction fewer generalizing m steps with
  | zero => exact run_of_ended behave ended steps
  | succ fewer ih =>
    obtain ⟨more, rfl⟩ := Nat.exists_eq_add_of_le le
    rw [run_succ] at ended
    rw [Nat.add_right_comm, run_succ, run_succ]
    exact ih ended (Nat.le_add_right ..)

/-- A run that has come to its end without being aborted is not aborted at any point. -/
theorem unaborted_of_ended (ended : (m.run behave steps).outcome?.isSome)
    (unaborted : (m.run behave steps).aborted = false) (other : Nat) :
    (m.run behave other).aborted = false := by
  by_contra aborts
  have aborted : (m.run behave other).aborted = true := Bool.not_eq_false _ ▸ aborts
  have same : m.run behave steps = m.run behave other := by
    rcases Nat.le_total steps other with before | after
    · exact (run_of_le ended before).symm
    · exact run_of_le (ended_of_aborted aborted) after
  exact Bool.noConfusion (unaborted.symm.trans (same ▸ aborted))

end Ends

/-- A mutation that is called at the top and accepted opens the hand-out of the new configuration, and
nothing else has happened by then. -/
theorem happening?_of_call {world : World κ μ ν} {mutation : Mutation}
    (accepted : (mutation.attempt world.store.live).outcome = .ok ()) :
    happening? (start world mutation.call) = some (.accepted (mutation.attempt world.store.live).live) := by
  change (mutation.attempt world.store.live).happening? world.store.live = _
  rw [Attempt.happening?, accepted]

/-- The credit of a bounded run covers what is pending already and all that may still happen. -/
theorem Bounded.thrifty {changes subscriptions : Nat} (bounded : m.Bounded behave changes subscriptions)
    (coherent : m.Coherent) (unaborted : ∀ steps, .aborted ∉ m.history behave steps) :
    m.Thrifty behave (m.world.store.pending.length + (2 * changes + 2 * subscriptions)) where
  coherent := coherent
  unaborted := unaborted
  covers steps := by
    have changed := bounded.changes steps
    have subscribed := bounded.subscriptions steps
    unfold expense
    omega

/-- A call of an accepted mutation returns if the rest of the run is bounded. -/
theorem exists_returned_call {world : World κ μ ν} {mutation : Mutation}
    (accepted : (mutation.attempt world.store.live).outcome = .ok ()) {credit : Nat}
    (thrifty : Thrifty behave credit ((start world mutation.call).step behave)) :
    ∃ steps, ((start world mutation.call).run behave steps).outcome? = some .returned := by
  obtain ⟨after, control, script, next, waits, _, _, certain⟩ := step_call behave world mutation
  rw [accepted] at certain
  rw [next] at thrifty
  obtain ⟨later, comes, returned⟩ : ∃ later : Machine κ μ ν,
      ComesTo behave ⟨after, [], control⟩ later ∧ later.outcome? = some .returned := by
    rcases waits with rfl | rfl
    · exact ⟨_, .step .refl, outcome?_of_end? certain⟩
    · obtain ⟨drained, drains⟩ := (concludes behave credit).drain _ _ _ thrifty
      exact ⟨_, drains.trans (.step .refl), outcome?_of_end? certain⟩
  rw [← next] at comes
  obtain ⟨steps, rfl⟩ := comes.step
  exact ⟨steps, returned⟩

end Machine

end TrainingCollar
