import CelShell.Shell.Basic

/-!
# Running a shell

How a shell meets its input and output. The output is an action in a monad of the caller's choice
that writes one piece of text and may fail; the input is a list of reads, each a line or the reason
why it could not be read.
-/

namespace CelShell.Shell

variable {m : Type → Type} [Monad m]

/-- An action that writes a text, or tells why it could not. -/
abbrev Writer (m : Type → Type) := String → m (Except String Unit)

/-- Writes pieces up to the first failure. -/
def writeAll (write : Writer m) : List String → m (Except String Unit)
  | [] => return .ok ()
  | piece :: rest => do
    match ← write piece with
    | .ok () => writeAll write rest
    | .error reason => return .error reason

/-- Writes the banner. -/
def greet (write : Writer m) : m (Except ShellError Unit) :=
  return (← writeAll write banner).mapError .output

/-- Answers a line. A failing output ends the shell, but the line stays recorded. -/
def submit (write : Writer m) (s : Shell) (line : String) : m (Shell × Except ShellError Step) := do
  let response := s.respond line
  match ← writeAll write (response.output.flatMap response.shell.pieces) with
  | .ok () => return (response.shell, .ok response.step)
  -- What is recorded stays, although its answer did not get out.
  | .error reason => return (response.shell, .error (.output reason))

/-- What a read leads to: an answer, or the end if there is nothing to answer. -/
def turn (write : Writer m) (s : Shell) : Except String String → m (Shell × Except ShellError Step)
  | .ok line => submit write s line
  | .error reason => return (s, .error (.input reason))

/-- Answers reads until they end, one of them fails, or the session is ended. Before each read,
also the one that finds the end, the prompt is given out. -/
def run (ask : String → m Unit) (write : Writer m) (s : Shell) :
    List (Except String String) → m (Shell × Except ShellError Unit)
  | [] => do
    -- The prompt stands also before the read that finds the end.
    ask s.prompt
    return (s, .ok ())
  | read :: rest => do
    ask s.prompt
    match ← turn write s read with
    | (s, .ok .goOn) => run ask write s rest
    | (s, .ok .terminated) => return (s, .ok ())
    | (s, .error e) => return (s, .error e)

/-! ## Input from bytes -/

/-- The line feed, as a byte. -/
def lineFeed : UInt8 := 10

/-- Bytes cut after each line feed. -/
def cutLines : List UInt8 → List (List UInt8)
  | [] => []
  | b :: rest =>
    if b = lineFeed then [b] :: cutLines rest
    else
      match cutLines rest with
      | line :: lines => (b :: line) :: lines
      -- The last line may have no line feed.
      | [] => [[b]]

/-- The text that bytes encode, or the reason why they encode none. -/
def decodeLine (bytes : List UInt8) : Except String String :=
  match String.fromUTF8? ⟨bytes.toArray⟩ with
  | some line => .ok line
  | none => .error "stream did not contain valid UTF-8"

/-- The reads that bytes give, one for each line. -/
def readsOf (bytes : ByteArray) : List (Except String String) :=
  (cutLines bytes.toList).map decodeLine

end CelShell.Shell
