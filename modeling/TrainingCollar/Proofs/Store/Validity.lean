import TrainingCollar.Proofs.Store.Provenance

/-! # Validity of what is in force and handed out

Four mutations lead to another configuration. Updates check all of it, replacements what they are given,
additions one step, and removals nothing. Whatever is in force or was handed to a listener is guarded
nevertheless. For it to be valid as well, no list of steps may stand in a bound of the loudness or inside a
step: an edit of the list changes such a bound or a range of such a step, and nobody looks at their order
again. Callers have to put a list there themselves, by assigning to a configuration that they pass.
-/

namespace TrainingCollar

variable {κ μ ν : Type}

namespace Machine

variable {behave : κ → Settings → Script κ μ ν} {allowed : Machine κ μ ν → Prop}
  {first m : Machine κ μ ν}

/-- A configuration is in force, or a listener was handed it at some time. -/
def Shows (m : Machine κ μ ν) (s : Settings) : Prop :=
  s = m.world.store.live ∨ ∃ call ∈ m.world.calls, call.snapshot = s

theorem All.of_shows {holds : Settings → Prop} (all : m.All holds) {s : Settings} (isShown : m.Shows s) :
    holds s := by
  rcases isShown with rfl | ⟨call, member, rfl⟩
  · exact all.delivery.live
  · exact all.calls call member

/-- Whatever callers and callbacks do, the configuration in force and every one that a listener was ever
handed is guarded. In particular the strengths of its steps are within its own bounds, which are within
what the device accepts. It is valid if no list of steps stands in its bounds of the loudness or inside a
step; that is so for all of them, if it is for the first configuration and for those that are tried in its
place. -/
theorem Course.holds_and_hands_out_valid {initial : Value} (fresh : first.Fresh initial)
    (course : Course behave allowed first m) :
    (∀ s : Settings, m.Shows s →
      s.Guarded ∧ s.WithinDevice ∧ (s.sharing.isApart = true → s.Valid)) ∧
    (initial.isApart = true → (∀ m, allowed m → m.isApart = true) →
      ∀ s : Settings, m.Shows s → s.Valid) := by
  have guarded : m.All Settings.Guarded := (course.reachable fresh.reachable).coherent.guarded
  constructor
  · intro s isShown
    have kept := guarded.of_shows isShown
    exact ⟨kept, kept.withinDevice, kept.valid⟩
  · intro given tried s isShown
    have start : first.All (·.sharing.isApart = true) := by
      refine fresh.all rfl ?_
      rintro settings rfl
      exact given
    have apart := course.all fresh.reachable start fun m permitted => conserves_isApart (tried m permitted)
    exact (guarded.of_shows isShown).valid (apart.of_shows isShown)

/-- The run hands out seven configurations, all of them valid. -/
theorem holds_and_hands_out_valid_session :
    (Hearer.session 30).world.calls.map (fun call =>
        (call.subscription.handle, Settings.microphone? call.snapshot)) =
      [(1, some 27), (1, some 28), (2, some 26), (1, some 29), (2, some 29), (1, some 26),
        (2, some 26)] ∧
      ∀ s, (Hearer.session 30).Shows s → s.Valid := by
  have fresh : Fresh .null (start ⟨.ofSettings .defaults, .empty [], none, (), [.logged .passed]⟩
      (.subscribe Hearer.eager fun _ => .done) : Machine Hearer Unit Unit) :=
    .of Store.start_null _ none () _
  have opening : Course Hearer.behave (·.isApart = true) _ Hearer.opened :=
    .run (by decide +kernel : ∀ k < 4, _)
  have answering : Course Hearer.behave (·.isApart = true) _ (Hearer.session 30) :=
    .run (by decide +kernel : ∀ k < 30, _)
  have course := (opening.next (by decide +kernel) Hearer.request).trans answering
  exact ⟨by decide +kernel, (course.holds_and_hands_out_valid fresh).2 rfl fun _ apart => apart⟩

end Machine

namespace Hearer

/-- The defaults, but a caller has assigned the list of corrections to the lower bound of the loudness,
and an empty list to the upper one. They are valid. -/
def entangled : Settings :=
  { Settings.defaults with
    decibelMin := .list []
    decibelMax := .list []
    sharing := ⟨false, [(.corrections, [])], [], [], []⟩ }

/-- The quiet callback subscribes to a store with these, and a beep is added. -/
def entangling : Machine Hearer Unit Unit :=
  .start ⟨.ofSettings entangled, .empty [], none, (), [.logged .passed]⟩
    (.subscribe .quiet fun _ => .mutate (.add (.text "correction_steps")
      (.step { endless with time := .tuple [.int 0] })) fun _ => .done)

end Hearer

namespace Machine

/-- The beep stands in the lower bound of the loudness as well then, and what is in force and handed to
the quiet callback is not valid. -/
theorem holds_and_hands_out_invalid_entangling : Hearer.entangling.Fresh (.settings Hearer.entangled) ∧
    Course Hearer.behave (fun _ => True) Hearer.entangling (Hearer.entangling.run Hearer.behave 9) ∧
      (Hearer.entangling.run Hearer.behave 9).outcome?.isSome ∧
      ¬ Settings.Valid (Hearer.entangling.run Hearer.behave 9).world.store.live ∧
      ∃ call ∈ (Hearer.entangling.run Hearer.behave 9).world.calls,
        ¬ Settings.Valid call.snapshot := by
  have started : Store.start (.settings Hearer.entangled) =
      .ok (.ofSettings Hearer.entangled : Store Hearer) := by
    simp only [Store.start, check_eq_ok_iff, pure_eq_ok_iff]
    exact ⟨(by decide +kernel : Settings.Valid Hearer.entangled), trivial⟩
  exact ⟨.of started _ none () _, .run fun _ _ => trivial, by decide +kernel, by decide +kernel,
    by decide +kernel⟩

end Machine

end TrainingCollar
