import TrainingCollar.Proofs.Merging
import TrainingCollar.Proofs.Store.Admission
import TrainingCollar.Proofs.Store.Documented

/-! # Updates as merges

An update coerces every field of the configuration in force again and checks the result as a whole. In
a store that was only given what was built this comes to a merge of the fields that the update names:
`Settings.result_update_eq_ok_iff`. So the order of the names does not matter, no other field changes,
and two updates that are accepted one after the other can be made at once.
-/

namespace TrainingCollar

/-- A mapping with texts as keys, and what is under them in the order of the mapping. -/
def Value.Names (v : Value) (named : List (String × Value)) : Prop :=
  v.entries? = some (named.map fun (name, content) => (.text name, content)) ∧
    (named.map Prod.fst).Nodup

/-- What a call is given under names in one value: a mapping, pairs of names and contents, or nothing. -/
def Value.Gives (v : Value) (named : List (String × Value)) : Prop :=
  entriesOf v = .ok (named.map fun (name, content) => (.text name, content)) ∧
    (named.map Prod.fst).Nodup

theorem Value.Names.gives {v : Value} {named : List (String × Value)} (names : v.Names named) :
    v.Gives named :=
  ⟨Settings.entriesOf_of_entries? names.1, names.2⟩

namespace Settings

variable {s t live : Settings} {p : Value} {named others : List (String × Value)}

/-- All contents under names are merged. -/
def MergesNamed (s live : Settings) (named : List (String × Value)) : Prop :=
  s.Merges live (named.map fun (name, content) => (.text name, content))

/-- The entries that an update by a mapping and by named fields merges. -/
def updateEntries (named fields : List (String × Value)) : List (Value × Value) :=
  fields.foldl (fun entries (name, content) => Value.insert entries (.text name) content)
    (named.map fun (name, content) => (.text name, content))

/-- Where coercion leaves the configuration in force as it is, an update is accepted if what comes of
merging its entries is valid. -/
theorem result_update_iff_merges (settled : build live = .ok live) (gives : p.Gives named)
    (fields : List (String × Value)) : ((Mutation.update p fields).attempt live).result = .ok s ↔
      s.Merges live (updateEntries named fields) ∧ s.Valid := by
  have once : Value.OnceNamed (updateEntries named fields) := .foldl_insert fields (.of_nodup gives.2)
  rw [← merged_eq_ok_iff settled once, result_update, gives.1]
  change (live.merged (updateEntries named fields) >>= fun merged => pure merged.2) = _ ↔ _
  cases live.merged (updateEntries named fields) <;> rfl

theorem result_update_eq_ok_iff (settled : build live = .ok live) (names : p.Names named)
    (fields : List (String × Value)) : ((Mutation.update p fields).attempt live).result = .ok s ↔
      s.Merges live (updateEntries named fields) ∧ s.Valid :=
  result_update_iff_merges settled names.gives fields

/-- The names that are merged are those of fields, and so not the two that a call has for itself. -/
theorem MergesNamed.ofCall (merges : s.MergesNamed live named) (p : Value) :
    Mutation.ofCall (some p) named = .ok (.update p named) := by
  have apart (field : SettingField) : field.name ≠ "self" ∧ field.name ≠ "partial" := by
    rcases field with _ | _ | _ | _ | _ | _ | _ | _ | _ | _ | _ | _ | ⟨_ | _⟩ <;> decide
  have fieldNames : ∀ entry ∈ named, entry.1 ≠ "self" ∧ entry.1 ≠ "partial" := by
    intro entry member
    obtain ⟨field, isName⟩ := merges.known _ (List.mem_map_of_mem member)
    rw [Value.text.inj isName]
    exact apart field
  have noSelf : ¬(named.any (·.1 == "self")) = true := by
    rw [List.any_eq_true]
    rintro ⟨entry, member, same⟩
    exact (fieldNames entry member).1 (beq_iff_eq.mp same)
  have noPartial : named.find? (·.1 == "partial") = none := by
    rw [List.find?_eq_none]
    intro entry member same
    exact (fieldNames entry member).2 (beq_iff_eq.mp same)
  unfold Mutation.ofCall
  rw [if_neg noSelf, noPartial]

end Settings

namespace Machine

variable {κ μ ν : Type} {behave : κ → Settings → Script κ μ ν} {first m : Machine κ μ ν}

/-- What a mutation puts in force is in force when callers hear of it next. -/
theorem Puts.live_step {mutation : Mutation} {s : Settings} (puts : m.Puts mutation s)
    (answer : Option Fault → Script κ μ ν) :
    ((m.asks mutation answer).step behave).world.store.live = s := by
  change ((m.asks mutation answer).settle (mutation.attempt m.world.store.live) answer).world.store.live = s
  unfold settle
  rw [puts.1]
  dsimp only
  split <;> exact puts.2

/-- In a store that only ever was given steps and configurations as they were built, an update by a
mapping from texts is accepted exactly if there is a valid configuration in which every field that is
named holds what it makes of the content and every other field what it held; and that configuration is
then put in force. The order in which a mapping has its names makes no difference. Where one update puts
a configuration in force and another is accepted in a store with that configuration, one call for both
is accepted at the start and comes to the same. -/
theorem Course.updates_merge {initial : Value} (fresh : first.Fresh initial)
    (genuine : initial.Genuine) (course : Course behave Genuine first m) :
    (∀ (p : Value) (named : List (String × Value)) (s : Settings), p.Names named →
      (m.Puts (.update p []) s ↔ s.MergesNamed m.world.store.live named ∧ s.Valid) ∧
        (m.Puts (.update p []) s → ∀ answer,
          ((m.asks (.update p []) answer).step behave).world.store.live = s)) ∧
      (∀ (p q : Value) (named others : List (String × Value)) (s : Settings), p.Names named →
        q.Names others → named.Perm others → (m.Puts (.update p []) s ↔ m.Puts (.update q []) s)) ∧
        ∀ (p q : Value) (named others : List (String × Value)) (s t : Settings)
          (later : Machine κ μ ν), p.Names named → q.Names others → m.Puts (.update p []) s →
            later.world.store.live = s → later.Puts (.update q []) t →
              ∃ both, Mutation.ofCall (some p) others = .ok both ∧ m.Puts both t := by
  have canonical := course.canonical fresh genuine fun _ permitted => permitted
  have settled := canonical.build
  have puts_iff (p : Value) (named : List (String × Value)) (s : Settings) (names : p.Names named) :
      m.Puts (.update p []) s ↔ s.MergesNamed m.world.store.live named ∧ s.Valid :=
    Attempt.result_eq_ok_iff.symm.trans (Settings.result_update_eq_ok_iff settled names [])
  refine ⟨fun p named s names => ⟨puts_iff p named s names, fun puts => puts.live_step⟩, ?_, ?_⟩
  · intro p q named others s names otherNames perm
    rw [puts_iff p named s names, puts_iff q others s otherNames]
    refine and_congr_left fun _ => ⟨fun merges => ?_, fun merges => ?_⟩
    · exact Settings.Merges.perm merges (perm.map _)
    · exact Settings.Merges.perm merges (perm.symm.map _)
  · rintro p q named others s t later names otherNames first rfl second
    obtain ⟨merges, valid⟩ := (puts_iff p named _ names).mp first
    have settledLater := merges.build settled
    obtain ⟨mergesOthers, validAfter⟩ := (Settings.result_update_eq_ok_iff settledLater otherNames []).mp
      (Attempt.result_eq_ok_iff.mpr second)
    have mergesNamed : t.MergesNamed later.world.store.live others := mergesOthers
    have mergesBoth := merges.trans otherNames.2 mergesOthers
    refine ⟨_, mergesNamed.ofCall p, Attempt.result_eq_ok_iff.mp ?_⟩
    exact (Settings.result_update_eq_ok_iff settled names others).mpr ⟨mergesBoth, validAfter⟩

/-- A new gain step of the microphone and an alert, and then another alert and a new greatest level. -/
def louder : List (String × Value) :=
  [("mic_sensitivity", .int 28), ("alert_type", .text " collar_beep")]

@[inherit_doc louder]
def calmer : List (String × Value) :=
  [("alert_type", .text "none"), ("decibel_threshold_max", .int 99)]

/-- The store with a beep once the first of these updates was accepted. -/
def loud : Machine Hearer Unit Unit :=
  (beeped.asks (.update (namedMap louder) []) fun _ => .done).step Hearer.behave

/-- Both updates are made at once in the store with a beep. -/
theorem updates_merge_beeped : ∃ s t both, s.MergesNamed beeped.world.store.live louder ∧
    beeped.Puts (.update (namedMap louder) []) s ∧ s.microphone? = some 28 ∧
      Mutation.ofCall (some (namedMap louder)) calmer = .ok both ∧ beeped.Puts both t := by
  obtain ⟨accepted, _, composed⟩ := beeped_course.updates_merge beeping_fresh trivial
  have louderNames : (namedMap louder).Names louder := ⟨rfl, by decide⟩
  have calmerNames : (namedMap calmer).Names calmer := ⟨rfl, by decide⟩
  obtain ⟨s, isFirst⟩ := isOk_iff.mp (by decide +kernel :
    ((Mutation.update (namedMap louder) []).attempt beeped.world.store.live).result.isOk = true)
  obtain ⟨t, isSecond⟩ := isOk_iff.mp (by decide +kernel :
    ((Mutation.update (namedMap calmer) []).attempt loud.world.store.live).result.isOk = true)
  have first := Attempt.result_eq_ok_iff.mp isFirst
  obtain ⟨merges_iff, isLive⟩ := accepted _ _ s louderNames
  have live : loud.world.store.live = s := by
    rw [loud]
    exact isLive first _
  have level : loud.world.store.live.microphone? = some 28 := by decide +kernel
  rw [live] at level
  obtain ⟨both, isCall, puts⟩ := composed _ _ _ _ s t loud louderNames calmerNames first live
    (Attempt.result_eq_ok_iff.mp isSecond)
  exact ⟨s, t, both, (merges_iff.mp first).1, first, level, isCall, puts⟩

end Machine

end TrainingCollar
