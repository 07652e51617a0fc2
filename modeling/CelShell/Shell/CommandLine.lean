import CelShell.Shell.Config
import CelShell.Shell.Run

/-!
# The command line

Arguments are taken one after the other, so a request for the version is answered even if what
follows it is wrong. Short options can be joined: the last of them takes the rest as its value. A
value that begins with a hyphen has to be joined to its option, for otherwise it looks like one.
-/

namespace CelShell.CommandLine

/-- The options without a value. -/
inductive Switch where
  | noCheck | noMacros | vi | verbose
  deriving DecidableEq, Repr

/-- The options with a value. -/
inductive Valued where
  | eval | config | historySize | prompt
  deriving DecidableEq, Repr

/-- The options. -/
inductive Argument where
  | switch (s : Switch)
  | valued (v : Valued)
  /-- Asks for the version. -/
  | version
  /-- Asks for the usage. -/
  | help
  deriving DecidableEq, Repr

/-- The long name of an option with a value. -/
def Valued.name : Valued → String
  | eval => "eval"
  | config => "config"
  | historySize => "history-size"
  | prompt => "prompt"

namespace Argument

/-- The options by their long names. -/
def longNames : Table String Argument :=
  [("eval", valued .eval), ("config", valued .config), ("history-size", valued .historySize),
    ("no-check", switch .noCheck), ("no-macros", switch .noMacros), ("prompt", valued .prompt),
    ("vi", switch .vi), ("verbose", switch .verbose), ("version", version), ("help", help)]

/-- The options by their letters. -/
def letters : Table Char Argument :=
  [('e', valued .eval), ('v', switch .verbose), ('V', version), ('h', help)]

end Argument

/-- What is wrong with the arguments. -/
inductive UsageError where
  /-- An argument is no option. -/
  | unexpected (argument : String)
  /-- An option has no value. -/
  | missingValue (option : Valued)
  /-- An option takes no value. -/
  | needlessValue (argument : String)
  /-- An option does not take this value. -/
  | badValue (option : Valued) (value : String)
  /-- An option is given twice. -/
  | repeated
  deriving DecidableEq, Repr

/-- The text of an error. -/
def UsageError.text : UsageError → String
  | unexpected argument => "unexpected argument '" ++ argument ++ "'"
  | missingValue option => "a value is required for '--" ++ option.name ++ "'"
  | needlessValue argument => "no value is expected for '--" ++ argument ++ "'"
  | badValue option value => "invalid value '" ++ value ++ "' for '--" ++ option.name ++ "'"
  | repeated => "an option cannot be used twice"

/-- What the arguments ask for. -/
structure Options where
  /-- The switches that are on. -/
  switches : List Switch := []
  /-- An expression to evaluate. -/
  eval : Option String := none
  /-- A configuration file. -/
  config : Option String := none
  /-- How many lines are kept. -/
  historySize : Option Nat := none
  /-- What is written after the number of a line. -/
  prompt : Option String := none
  deriving DecidableEq, Repr, Inhabited

namespace Options

/-- Turns a switch on. -/
def turnOn (o : Options) (s : Switch) : Except UsageError Options :=
  if s ∈ o.switches then .error .repeated else .ok { o with switches := s :: o.switches }

/-- Whether an option has its value already. -/
def has (o : Options) : Valued → Bool
  | .eval => o.eval.isSome
  | .config => o.config.isSome
  | .historySize => o.historySize.isSome
  | .prompt => o.prompt.isSome

/-- Gives an option its value. -/
def give (o : Options) (option : Valued) (value : String) : Except UsageError Options :=
  if o.has option then .error .repeated
  else
    match option with
    | .eval => .ok { o with eval := some value }
    | .config =>
      if value.isEmpty then .error (.badValue option value)
      else .ok { o with config := some value }
    | .historySize =>
      match Number.readUInt64? value.toList with
      | some n => .ok { o with historySize := some n.toNat }
      | none => .error (.badValue option value)
    | .prompt => .ok { o with prompt := some value }

/-- The settings that hold: what the arguments say goes before the configuration. -/
def apply (o : Options) (s : Settings) : Settings where
  historySize := o.historySize.getD s.historySize
  -- A switch can only turn off what the configuration has on.
  check := s.check && .noCheck ∉ o.switches
  macrosOn := s.macrosOn && .noMacros ∉ o.switches
  prompt := o.prompt.getD s.prompt
  formatIndent := s.formatIndent
  viMode := s.viMode || .vi ∈ o.switches

end Options

/-- What a run of the program is for. -/
inductive Request where
  /-- An evaluation or a session. -/
  | start (options : Options)
  /-- The version. -/
  | version
  /-- The usage. -/
  | help
  deriving DecidableEq, Repr

/-- Where one argument leaves the reading of arguments. -/
inductive Progress where
  /-- The argument is complete. -/
  | complete (options : Options)
  /-- An option waits for its value. -/
  | awaiting (option : Valued) (options : Options)
  /-- The rest does not matter. -/
  | settled (request : Request)

/-- An option, with its value if one is joined to it. -/
def takeLong (o : Options) (name : String) (value : Option String) :
    Except UsageError Progress :=
  match Table.get? Argument.longNames name, value with
  | some (.valued v), some text => .complete <$> o.give v text
  | some (.valued v), none => .ok (.awaiting v o)
  | some (.switch s), none => .complete <$> o.turnOn s
  | some .version, none => .ok (.settled .version)
  | some .help, none => .ok (.settled .help)
  | some _, some _ => .error (.needlessValue name)
  | none, _ => .error (.unexpected name)

/-- Options by their letters; one with a value takes the rest as its value. -/
def takeLetters (o : Options) : List Char → Except UsageError Progress
  | [] => .ok (.complete o)
  | c :: rest =>
    match Table.get? Argument.letters c with
    | some (.valued v) =>
      match rest with
      | [] => .ok (.awaiting v o)
      -- An equality sign before the value is left out.
      | '=' :: text | text => .complete <$> o.give v (String.ofList text)
    | some (.switch s) => do takeLetters (← o.turnOn s) rest
    -- What else is joined to it does not matter.
    | some .version => .ok (.settled .version)
    | some .help => .ok (.settled .help)
    | none => .error (.unexpected c.toString)

/-- One argument that stands for itself. -/
def takeArgument (o : Options) (argument : String) : Except UsageError Progress :=
  match argument.toList with
  | '-' :: '-' :: long =>
    let name := String.ofList (long.takeWhile (· != '='))
    match long.dropWhile (· != '=') with
    -- The value begins behind the first equality sign.
    | _ :: value => takeLong o name (some (String.ofList value))
    | [] => takeLong o name none
  | '-' :: c :: letters => takeLetters o (c :: letters)
  | _ => .error (.unexpected argument)

/-- Whether an argument looks like an option; a single hyphen does not. -/
def looksLikeOption (argument : String) : Bool :=
  argument.startsWith "-" && argument != "-"

/-- What arguments ask for, after those that were already taken. -/
def parseFrom (o : Options) : List String → Except UsageError Request
  | [] => .ok (.start o)
  | "--" :: rest =>
    -- Behind the hyphens everything stands for itself, and the program takes nothing of that kind.
    match rest with
    | [] => .ok (.start o)
    | argument :: _ => .error (.unexpected argument)
  | argument :: rest => do
    match ← takeArgument o argument with
    | .complete o => parseFrom o rest
    | .settled request => return request
    | .awaiting option o =>
      match rest with
      | [] => throw (.missingValue option)
      | value :: rest =>
        -- A hyphen in front makes it an option, so the value is missing.
        if looksLikeOption value then throw (.missingValue option)
        else parseFrom (← o.give option value) rest

/-- What arguments ask for. -/
def parse (arguments : List String) : Except UsageError Request := parseFrom {} arguments

/-! ## Running -/

/-- The program's own name and version, on a line. -/
def versionLine : String := programName ++ " " ++ programVersion ++ "\n"

/-- How the program is used. -/
def usageLine : String := "Usage: " ++ programName ++ " [OPTIONS]\n"

/-- What ends the program before its end. -/
inductive Failure where
  /-- The arguments are wrong. -/
  | usage (error : UsageError)
  /-- The configuration cannot be had. -/
  | config (error : ConfigError)
  /-- The shell cannot begin or go on. -/
  | shell (error : ShellError)
  deriving DecidableEq, Repr

/-- The text of a failure. -/
def Failure.text : Failure → String
  | usage e => e.text
  | config e => e.text
  | shell e => e.text

/-- The code with which the program ends. -/
def exitCode : Except Failure Unit → UInt32
  | .ok () => 0
  | .error (.usage _) => 2
  | .error _ => 1

/-- The shell that options and a configuration ask for. -/
def shellOf (o : Options) (configured : Except ConfigError Settings) : Except Failure Shell := do
  let settings ← configured.mapError .config
  (Shell.new (o.apply settings)).mapError .shell

variable {m : Type → Type} [Monad m]

/-- Evaluates the expression of the options, if there is one, and otherwise begins a session and
answers what the input gives. -/
def converse (write : Shell.Writer m) (o : Options) (shell : Shell)
    (reads : List (Except String String)) : m (Except Failure Unit) := do
  match o.eval with
  | some text => return ((← shell.submit write text).2.map fun _ => ()).mapError .shell
  | none =>
    match ← Shell.greet write with
    | .error e => return .error (.shell e)
    | .ok () =>
      let ask := fun prompt => discard (write prompt)
      -- The prompt is written on a best effort, so a failure there is no failure of the session.
      return (← shell.run ask write reads).2.mapError .shell

/-- Runs the program on its arguments. The configuration is that of a file, by its path, or that of
the user. -/
def execute (write : Shell.Writer m) (configured : Option String → m (Except ConfigError Settings))
    (arguments : List String) (reads : List (Except String String)) :
    m (Except Failure Unit) := do
  match parse arguments with
  | .error e => return .error (.usage e)
  | .ok .version => return (← write versionLine).mapError (.shell ∘ .output)
  | .ok .help => return (← write usageLine).mapError (.shell ∘ .output)
  | .ok (.start o) =>
    match shellOf o (← configured o.config) with
    | .error e => return .error e
    | .ok shell => converse write o shell reads

end CelShell.CommandLine
