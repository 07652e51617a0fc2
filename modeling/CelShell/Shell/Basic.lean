import CelShell.History.Introspection
import CelShell.Shell.Settings
import CelShell.Unicode.Property

/-!
# Shells

A shell takes lines and answers each one. `Shell.respond` is the answer to a line as a value: the
shell afterwards, what is to be printed and whether the session goes on. Printing is left to
whoever holds the output, so that nothing a line does depends on whether it can be printed.
-/

namespace CelShell

/-- The name of the program. -/
def programName : String := "cel-repl"

/-- The version of the program. -/
def programVersion : String := "0.3.0"

/-- A running shell. -/
structure Shell where
  /-- How texts are read and what names stand for. -/
  env : Environment
  /-- The lines so far. -/
  session : Session
  /-- Whether expressions are checked before they are evaluated. -/
  check : Bool
  /-- What is written after the number of a line. -/
  promptText : String

/-- What ends a shell. Whatever a line alone can cause is printed instead. -/
inductive ShellError where
  /-- The input cannot be read. -/
  | input (reason : String)
  /-- The output cannot be written. -/
  | output (reason : String)
  /-- No line could be kept. -/
  | history (error : CapacityError)
  /-- A function of the shell cannot be declared. -/
  | declaration (error : DeclareError)
  deriving DecidableEq, Repr

/-- The text of an error. -/
def ShellError.text : ShellError → String
  | input reason => "failed to read input: " ++ reason
  | output reason => "failed to write output: " ++ reason
  | history e => e.text
  | declaration e => "failed to register introspection functions: " ++ e.text

/-- Whether a session goes on after a line. -/
inductive Step where
  | goOn | terminated
  deriving DecidableEq, Repr

/-- Something that a shell prints. -/
inductive Printed where
  /-- A text, after the prompt for the next line. -/
  | record (text : String)
  /-- The last words of a session. -/
  | farewell
  deriving DecidableEq, Repr

/-- The answer to a line. -/
structure Response where
  /-- The shell afterwards. -/
  shell : Shell
  /-- What is to be printed. -/
  output : List Printed
  /-- Whether the session goes on. -/
  step : Step

namespace Shell

/-- A shell of some settings. -/
def new (settings : Settings) : Except ShellError Shell := do
  let declared ← (Declarations.standard.declareAll Introspection.declarations).mapError .declaration
  let session ← (Session.new settings.historySize settings.formatIndent).mapError .history
  return ⟨⟨settings.macrosOn, declared⟩, session, settings.check, settings.prompt⟩

/-- What is printed when an expression asks to end the session. -/
def farewell : String := "So long, and thanks for all the fish!"

/-- What is printed when a session begins. -/
def banner : List String :=
  [programName, " ", programVersion, " started\n", "type quit() to exit\n"]

/-- How many lines were answered. -/
def position (s : Shell) : Nat := s.session.position

/-- What stands before the next line: its number and the text of the settings. -/
def prompt (s : Shell) : String :=
  "(" ++ String.ofList (Number.toDigits (s.position + 1)) ++ ")" ++ s.promptText

/-- What is printed, in the pieces in which it is written. -/
def pieces (s : Shell) : Printed → List String
  | .record text => [s.prompt, text, "\n"]
  | .farewell => [farewell, "\n"]

/-- A line without the line ends after it. -/
def lineText (line : String) : String :=
  let isEnd := fun c : Char => c == '\n' || c == '\r'
  String.ofList (line.toList.reverse.dropWhile isEnd).reverse

/-- Whether a text is white space only. -/
def isBlank (text : String) : Bool := Unicode.isBlank text.toList

/-- How a result is printed: a text as it is, any other value as source text. -/
def display : Value → String
  | .string s => s
  | v => v.text

/-- The value of a line that was read, in the session that has already recorded it. -/
def evaluate (s : Shell) (c : Compiled) : Except Failure Value := do
  let checked ← if s.check then (s.env.check c).mapError .issues else .ok c
  let program ← (Program.build checked.expr (Introspection.bindings s.session)).mapError .program
  (program.eval []).mapError .evaluation

/-- What is printed for the outcome of a line, and whether the session goes on. -/
def report : Except Failure Value → List Printed × Step
  | .ok v => ([.record (display v)], .goOn)
  | .error (.evaluation .quit) => ([.farewell], .terminated)
  | .error (.evaluation e) => ([.record e.text], .goOn)
  | .error (.program e) => ([.record e.text], .goOn)
  | .error (.issues is) =>
    (is.rendered.map fun text => .record (String.ofList (Unicode.trim text.toList)), .goOn)

/-- The answer to a line. A blank line has none; any other is recorded, whatever becomes of it. -/
def respond (s : Shell) (line : String) : Response :=
  let text := lineText line
  if isBlank text then ⟨s, [], .goOn⟩
  else
    let compiled := s.env.compile text
    let s := { s with session := s.session.record ⟨text, compiled⟩ }
    let (output, step) := report ((compiled.mapError .issues).bind s.evaluate)
    ⟨s, output, step⟩

end Shell

end CelShell
