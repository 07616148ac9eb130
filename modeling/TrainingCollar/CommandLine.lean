import TrainingCollar.Logging
import TrainingCollar.SettingsFile
import TrainingCollar.Summary

/-! # The command line

Three commands work on settings files: one shows a configuration, one checks a file, one writes the
defaults to a new file. Arguments are read from left to right: long options may be shortened as long as
they stay clear, short ones may be joined, and after two dashes everything is a file name.
-/

namespace TrainingCollar.CommandLine

/-- The version of the program. -/
def version : String := "1.0.0"

/-- What a user asks for. -/
inductive Command where
  /-- Shows the configuration in a file, or the defaults. -/
  | «show» (file : Option String)
  /-- Checks the configuration in a file. -/
  | validate (file : String)
  /-- Writes the defaults to a file, which must not exist unless this is forced. -/
  | init (file : String) (force : Bool)
deriving DecidableEq, Repr

/-! ## Options -/

/-- The options of the program and of its commands. -/
inductive Switch where
  | help
  | verbose
  | settings
  | force
deriving DecidableEq, Repr

/-- The names of options, with what they stand for. -/
abbrev Switches := List (String × Switch)

/-- The options of the program. -/
def programSwitches : Switches :=
  [("-h", .help), ("--help", .help), ("--verbose", .verbose), ("-v", .verbose)]

/-- The options of each command. -/
def commandSwitches : Command → Switches
  | .show _ => [("-h", .help), ("--help", .help), ("--settings", .settings), ("-s", .settings)]
  | .validate _ => [("-h", .help), ("--help", .help)]
  | .init .. => [("-h", .help), ("--help", .help), ("--force", .force)]

/-- Whether an option is followed by a value. -/
def Switch.takesValue (s : Switch) : Bool := s == .settings

/-- What a single argument is. -/
inductive Argument where
  | positional
  /-- An option and what follows its name in the same argument: nothing, an equals sign and a value, or
  other letters after a single dash. -/
  | option (switch : Switch) (attached : List Char)
  | unknown

/-- The option with a name. -/
def named? (switches : Switches) (name : List Char) : Option Switch :=
  (switches.find? (·.1 == String.ofList name)).map Prod.snd

/-- The part before the first equals sign, and the rest. -/
def splitEquals (arg : List Char) : List Char × List Char :=
  (arg.takeWhile (· != '='), arg.dropWhile (· != '='))

theorem splitEquals_append (arg : List Char) : (splitEquals arg).1 ++ (splitEquals arg).2 = arg := by
  simp [splitEquals]

/-- Whether an argument is a negative number, which is no option. A line may end after it. -/
def isNegativeNumber : List Char → Bool
  | '-' :: rest =>
    match rest.dropWhile Yaml.isAnyDigit with
    | '.' :: fraction => ends (fraction.dropWhile Yaml.isAnyDigit) &&
        fraction.head?.any Yaml.isAnyDigit
    | others => ends others && rest.head?.any Yaml.isAnyDigit
  | _ => false
where
  /-- Whether nothing but the end of the line is left. -/
  ends (text : List Char) : Bool := text == [] || text == ['\n']

/-- The options that an argument may be a shortened form of, or is joined to. -/
def candidates (switches : Switches) (arg : List Char) : List Argument :=
  match arg with
  | '-' :: '-' :: _ =>
    let (name, attached) := splitEquals arg
    (switches.filter fun (other, _) => name.isPrefixOf other.toList).map fun (_, switch) =>
      .option switch attached
  | dash :: letter :: rest =>
    (switches.filter fun (other, _) => other.toList == [dash, letter]).map fun (_, switch) =>
      .option switch rest
  | _ => []

/-- What an argument is. -/
def classify (switches : Switches) (arg : List Char) : Argument :=
  match arg with
  | '-' :: _ :: _ =>
    let (name, attached) := splitEquals arg
    match named? switches name with
    | some switch => .option switch attached
    | none =>
      match candidates switches arg with
      | found :: _ => found
      | [] => if isNegativeNumber arg || arg.contains ' ' then .positional else .unknown
  | _ => .positional

/-- Whether an argument is two dashes and an equals sign, which could be any long option. -/
def isUnclear (arg : String) : Bool := ['-', '-', '='].isPrefixOf arg.toList

/-! ## Reading arguments -/

/-- Why reading ends early. -/
inductive Stop where
  /-- A user asks for help. -/
  | help
  /-- The arguments make no sense. -/
  | usage
deriving DecidableEq, Repr

/-- The exit code of a program that does not get as far as a command. -/
def Stop.code : Stop → Int
  | help => 0
  | usage => 2

/-- An option with the value it is given. -/
abbrev Setting := Switch × Option String

/-- What one argument sets. -/
structure Effect where
  settings : List Setting
  /-- Whether the next argument is taken as a value. -/
  taken : Bool
  /-- Whether some letter of the argument is no option. -/
  surplus : Bool

/-- What an option sets, given what follows its name in the same argument. Letters after an option
without a value are options themselves. The last option may take its value from the next argument. -/
def effectOf (switches : Switches) (next : Option String) (switch : Switch) :
    (attached : List Char) → Option Effect
  | [] =>
    if switch.takesValue then next.map fun value => ⟨[(switch, some value)], true, false⟩
    else some ⟨[(switch, none)], false, false⟩
  | c :: rest =>
    if switch.takesValue then
      let value := String.ofList (if c = '=' then rest else c :: rest)
      some ⟨[(switch, some value)], false, false⟩
    else if c = '=' ∨ c = '-' then none
    else
      match named? switches ['-', c] with
      | some other => (effectOf switches next other rest).map fun effect =>
          { effect with settings := (switch, none) :: effect.settings }
      | none => some ⟨[(switch, none)], false, true⟩

/-- The next argument, if it can be the value of an option. -/
def valueAfter (switches : Switches) : List String → Option String
  | [] => none
  | arg :: _ =>
    match classify switches arg.toList with
    | .positional => some arg
    | _ => none

/-- What has been read of the arguments of a command. -/
structure Given where
  settings : List Setting
  /-- The file name. -/
  file : Option String
  /-- Whether something has no place in the command. -/
  surplus : Bool

/-- The arguments after a file name or two dashes. -/
def restOf (takesFile : Bool) (given : Given) : List String → Given
  | [] => given
  | arg :: rest =>
    if takesFile && given.file.isNone then
      { given with file := some arg, surplus := given.surplus || !rest.isEmpty }
    else { given with surplus := true }

/-- Reads the arguments of a command. -/
def readArguments (switches : Switches) (takesFile : Bool) : (taken : Bool) → Given → List String →
    Except Stop Given
  | _, given, [] => .ok given
  | true, given, _ :: rest => readArguments switches takesFile false given rest
  | false, given, arg :: rest =>
    if arg = "--" then
      .ok (if rest.isEmpty || !takesFile then { given with surplus := true }
        else restOf takesFile given rest)
    else
      match classify switches arg.toList with
      | .positional =>
        if takesFile && given.file.isNone then
          match rest with
          | "--" :: others => .ok (restOf takesFile { given with file := some arg } others)
          | _ => readArguments switches takesFile false { given with file := some arg } rest
        else readArguments switches takesFile false { given with surplus := true } rest
      | .unknown => readArguments switches takesFile false { given with surplus := true } rest
      | .option switch attached =>
        match effectOf switches (valueAfter switches rest) switch attached with
        | none => .error .usage
        | some effect =>
          if effect.settings.any (·.1 == .help) then .error .help
          else
            readArguments switches takesFile effect.taken
              { given with
                settings := given.settings ++ effect.settings
                surplus := given.surplus || effect.surplus }
              rest

/-- The command with a name, before its arguments are read. -/
def commandNamed? (name : String) : Option Command :=
  match name with
  | "show" => some (.show none)
  | "validate" => some (.validate "")
  | "init" => some (.init "" false)
  | _ => none

/-- Whether a command has a file name among its arguments. -/
def takesFile : Command → Bool
  | .show _ => false
  | _ => true

/-- The last value given to an option. -/
def valueOf (given : Given) (switch : Switch) : Option String :=
  (given.settings.filter (·.1 == switch)).getLast?.bind Prod.snd

/-- A command with its arguments. -/
def complete (command : Command) (given : Given) : Except Stop Command :=
  match command, given.file with
  | .show _, _ => .ok (.show (valueOf given .settings))
  | .validate _, some file => .ok (.validate file)
  | .init .., some file => .ok (.init file (given.settings.any (·.1 == .force)))
  | _, none => .error .usage

/-- Reads a command and its arguments. -/
def readCommand (name : String) (args : List String) : Except Stop (Command × Bool) :=
  match commandNamed? name with
  | none => .error .usage
  | some command => do
    let given ← readArguments (commandSwitches command) (takesFile command) false
      ⟨[], none, false⟩ args
    let command ← complete command given
    return (command, given.surplus)

/-- What a user asks for, and how much of it should be logged. -/
structure Request where
  verbose : Bool
  command : Command
deriving DecidableEq, Repr

/-- Reads the options of the program, up to the name of a command. -/
def readProgram (verbose surplus : Bool) : List String → Except Stop Request
  | [] => .error .usage
  | arg :: rest =>
    if arg = "--" then .error .usage
    else
      match classify programSwitches arg.toList with
      | .positional => do
        let (command, more) ← readCommand arg rest
        if surplus || more then .error .usage else return ⟨verbose, command⟩
      | .unknown => readProgram verbose true rest
      | .option switch attached =>
        match effectOf programSwitches none switch attached with
        | none => .error .usage
        | some effect =>
          if effect.settings.any (·.1 == .help) then .error .help
          else readProgram true (surplus || effect.surplus) rest

/-- Reads the arguments of the program. -/
def read (args : List String) : Except Stop Request :=
  if (args.takeWhile (· != "--")).any isUnclear then .error .usage else readProgram false false args

/-! ## Carrying out commands -/

/-- What a command leaves behind. -/
structure Result where
  files : FileTree
  /-- The text it prints. -/
  output : String
  records : List Record
  /-- The exit code, or the fault that ends the program. -/
  ending : Except Fault Nat

/-- Shows the configuration in a file, or the defaults. -/
def runShow (files : FileTree) (file : Option String) : Result :=
  let shown (settings : Settings) (records : List Record) : Result :=
    let report := settings.report
    ⟨files, report.text, records, match report.fault with
      | some fault => .error fault
      | none => .ok 0⟩
  match file with
  | none | some "" => shown .defaults []
  | some name =>
    let loaded := Settings.load files (.ofText name)
    match loaded.outcome with
    | .ok settings => shown settings loaded.records
    | .error fault => ⟨files, "", loaded.records, .error fault⟩

/-- Whether a fault of a file makes it invalid; any other fault ends the program. -/
def isExpected : Fault → Bool
  | .invalid _ | .missingFile .. | .malformed | .file .notFound _ => true
  | _ => false

/-- Checks the configuration in a file. -/
def runValidate (files : FileTree) (file : String) : Result :=
  let loaded := Settings.load files (.ofText file)
  match loaded.outcome with
  | .ok _ => ⟨files, "✓ VALID: " ++ file ++ "\n", loaded.records, .ok 0⟩
  | .error fault =>
    if isExpected fault then
      ⟨files, "✗ INVALID: " ++ fault.message ++ "\n", loaded.records, .ok 1⟩
    else ⟨files, "", loaded.records, .error fault⟩

/-- Writes the defaults to a file. -/
def runInit (files : FileTree) (file : String) (force : Bool) : Result :=
  let path := Path.ofText file
  match files.exists? path with
  | .error fault => ⟨files, "", [], .error fault⟩
  | .ok found =>
    if found && !force then
      ⟨files, "Error: " ++ path.text ++ " already exists (use --force to overwrite)\n", [], .ok 1⟩
    else
      match Settings.defaults.save files path with
      | (files, .ok record) =>
        ⟨files, "Wrote default settings to " ++ path.text ++ "\n", [record], .ok 0⟩
      | (files, .error fault) => ⟨files, "", [], .error fault⟩

/-- Carries out a command. -/
def Command.run (files : FileTree) : Command → Result
  | .show file => runShow files file
  | .validate file => runValidate files file
  | .init file force => runInit files file force

/-- The name of the level at which a request is logged. -/
def Request.levelName (r : Request) : String := if r.verbose then "DEBUG" else "WARNING"

/-- Carries out a request. -/
def Request.run (files : FileTree) (r : Request) : Result :=
  let result := r.command.run files
  { result with records := Logging.configuredRecord r.levelName :: result.records }

/-- How logging is set up for a request. -/
def Request.logging (r : Request) : Logging :=
  ⟨(if r.verbose then Level.debug else Level.warning).number, none⟩

/-- The lines that a request shows of its records. -/
def Request.logLines (r : Request) (time : String) (result : Result) : List String :=
  r.logging.lines time (result.records.map .ofRecord)

end TrainingCollar.CommandLine
