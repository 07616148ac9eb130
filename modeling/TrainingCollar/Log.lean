/-! # Log records

Operations report what they did as records. A record names the part of the program it comes from, its
level and a message.
-/

namespace TrainingCollar

/-- The severity of a record. -/
inductive Level where
  | debug
  | info
  | warning
  | error
deriving DecidableEq, Repr

/-- The part of the program a record comes from. -/
inductive Source where
  | validation
  | store
  | persistence
  | config
deriving DecidableEq, Repr

/-- One entry of the log. -/
structure Record where
  source : Source
  level : Level
  message : String
deriving DecidableEq

namespace Level

/-- The name of a level. -/
def name : Level → String
  | debug => "DEBUG"
  | info => "INFO"
  | warning => "WARNING"
  | error => "ERROR"

/-- The number by which levels are ordered. -/
def number : Level → Int
  | debug => 10
  | info => 20
  | warning => 30
  | error => 40

end Level

namespace Source

/-- The name of a source. -/
def name : Source → String
  | validation => "validation"
  | store => "store"
  | persistence => "persistence"
  | config => "config"

/-- The name of the logger of a source. -/
def logger (s : Source) : String := "acoustic_collar." ++ s.name

end Source

namespace Record

/-- The record of a configuration that was accepted. -/
def passed : Record := ⟨.validation, .debug, "Settings passed validation"⟩

end Record

end TrainingCollar
