import TrainingCollar.Violation

/-! # Faults

Everything that can make an operation fail, by cause. A violation is the ordinary answer to a bad
configuration; the other faults tell of a missing position, a file, a document, or a value of a kind
that an operation cannot work with.
-/

namespace TrainingCollar

/-- Why a position names no item. -/
inductive IndexFault where
  | notInteger (name : String) (index : Value)
  | outOfRange (name : String) (index : Int) (length : Nat)
  /-- A sequence has too few items; its kind is named, unless it is bytes. -/
  | missingItem (kind : Option String)

/-- What a file that has to exist is for. -/
inductive FileRole where
  | settings
  | configuration
deriving DecidableEq

/-- Why the file system refuses. -/
inductive FileFault where
  | notFound
  | isDirectory
  | notDirectory
  | alreadyExists
  | nameTooLong
  | badName
deriving DecidableEq

/-- Why an operation fails. -/
inductive Fault where
  | invalid (violation : Violation)
  | badIndex (cause : IndexFault)
  /-- A file that the operation reads does not exist. -/
  | missingFile (role : FileRole) (path : String)
  /-- The file system refuses an operation on a path. -/
  | file (cause : FileFault) (path : String)
  /-- A file holds no text. -/
  | notText
  | unknownLevel (name : String)
  /-- A text is no document. -/
  | malformed
  /-- A subscriber raised this message. -/
  | raised (message : String)
  /-- A value is of a kind that the operation does not take. -/
  | wrongKind
  /-- A value has no such part. -/
  | noPart
  /-- A mapping has no such key. -/
  | noKey
  /-- A number is too large for a double. -/
  | tooLarge
  /-- A value of the right kind that the operation cannot take. -/
  | badValue

/-- The wording of a missing position. -/
def IndexFault.message : IndexFault → String
  | notInteger name index => name ++ " index must be an integer, got " ++ index.literal
  | outOfRange name index length =>
    name ++ " index " ++ toString index ++ " out of range (length " ++ toString length ++ ")"
  | missingItem (some kind) => kind ++ " index out of range"
  | missingItem none => "index out of range"

/-- The number and the wording of a refusal of the file system. -/
def FileFault.message : FileFault → String
  | notFound => "[Errno 2] No such file or directory"
  | isDirectory => "[Errno 21] Is a directory"
  | notDirectory => "[Errno 20] Not a directory"
  | alreadyExists => "[Errno 17] File exists"
  | nameTooLong => "[Errno 36] File name too long"
  | badName => "embedded null byte"

namespace Fault

/-- The wording of a fault. The faults that callers raise are taken to have a wording: an exception that
cannot even be written out is not among them. -/
def message : Fault → String
  | invalid violation => violation.message
  | badIndex cause => cause.message
  | missingFile .settings path => "Settings file not found: " ++ path
  | missingFile .configuration path => "Configuration file not found: " ++ path
  | file cause path => cause.message ++ ": " ++ Text.quoted path
  | notText => "the file holds no text"
  | unknownLevel name => "Unknown log level: " ++ name
  | malformed => "<yaml error>"
  | raised text => text
  | wrongKind => "a value of another kind is needed"
  | noPart => "the value has no such part"
  | noKey => "the mapping has no such key"
  | tooLarge => "the number is too large"
  | badValue => "the value cannot be taken"

/-- The fault for a violation. A violation that shows an integer beyond the limit of digits has no
wording and is reported as a bad value. -/
def ofViolation (violation : Violation) : Fault :=
  if violation.shown.all Value.hasText then .invalid violation else .badValue

end Fault

/-- Fails with a violation. -/
def refuse {α : Type} (violation : Violation) : Except Fault α := .error (.ofViolation violation)

end TrainingCollar
