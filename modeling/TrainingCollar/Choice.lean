/-! # Choices

Three families of names describe what a collar does: the stimulus a step applies, how a range
resolves to one value, and the alert given before a stimulus.
-/

namespace TrainingCollar

/-- What a step does to the wearer. -/
inductive Stimulus where
  | beep
  | vibration
  | shock
deriving DecidableEq, Repr

/-- How a time or a strength is resolved from its range. -/
inductive Resolution where
  | fixed
  | random
  | progressive
  | redeemable
  | graded
deriving DecidableEq, Repr

/-- The signal given before a stimulus. -/
inductive Alert where
  | none
  | beep
  | vibration
deriving DecidableEq, Repr

/-- The three families of choices. -/
inductive Family where
  | stimulus
  | resolution
  | alert
deriving DecidableEq, Repr

/-- A member of one of the families. -/
inductive Choice where
  | stimulus (stimulus : Stimulus)
  | resolution (resolution : Resolution)
  | alert (alert : Alert)
deriving DecidableEq, Repr

/-- The name of a family in messages. -/
def Family.title : Family → String
  | .stimulus => "EventType"
  | .resolution => "RangeType"
  | .alert => "AlertType"

/-- The members of a family in the order of their numbers. -/
def Family.members : Family → List Choice
  | .stimulus => [.stimulus .beep, .stimulus .vibration, .stimulus .shock]
  | .resolution => [.resolution .fixed, .resolution .random, .resolution .progressive,
      .resolution .redeemable, .resolution .graded]
  | .alert => [.alert .none, .alert .beep, .alert .vibration]

namespace Choice

/-- The family a choice belongs to. -/
def family : Choice → Family
  | .stimulus _ => .stimulus
  | .resolution _ => .resolution
  | .alert _ => .alert

/-- The name of a choice within its family. -/
def name : Choice → String
  | .stimulus .beep => "COLLAR_BEEP"
  | .stimulus .vibration => "COLLAR_VIBRATION"
  | .stimulus .shock => "COLLAR_SHOCK"
  | .resolution .fixed => "FIXED"
  | .resolution .random => "RANDOM"
  | .resolution .progressive => "PROGRESSIVE"
  | .resolution .redeemable => "REDEEMABLE"
  | .resolution .graded => "GRADED"
  | .alert .none => "NONE"
  | .alert .beep => "COLLAR_BEEP"
  | .alert .vibration => "COLLAR_VIBRATION"

/-- The number of a choice within its family. -/
def number : Choice → Nat
  | .stimulus .beep => 0
  | .stimulus .vibration => 1
  | .stimulus .shock => 2
  | .resolution .fixed => 0
  | .resolution .random => 1
  | .resolution .progressive => 2
  | .resolution .redeemable => 3
  | .resolution .graded => 4
  | .alert .none => 0
  | .alert .beep => 1
  | .alert .vibration => 2

/-- A choice with the name of its family. -/
def text (c : Choice) : String := c.family.title ++ "." ++ c.name

/-- A choice with its family and number. -/
def literal (c : Choice) : String := "<" ++ c.text ++ ": " ++ toString c.number ++ ">"

end Choice

/-- The member of a family with a name. -/
def Family.ofName? (family : Family) (name : String) : Option Choice :=
  family.members.find? fun choice => choice.name == name

/-- The member of a family with a number. -/
def Family.ofNumber? (family : Family) (number : Int) : Option Choice :=
  family.members.find? fun choice => (choice.number : Int) == number

theorem Family.mem_members_iff (family : Family) (choice : Choice) :
    choice ∈ family.members ↔ choice.family = family := by
  cases family <;> cases choice <;> rename_i member <;> cases member <;>
    simp [members, Choice.family]

theorem Family.ofName?_name (choice : Choice) : choice.family.ofName? choice.name = some choice := by
  cases choice <;> rename_i member <;> cases member <;> rfl

end TrainingCollar
