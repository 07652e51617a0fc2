import CelShell.Shell.CommandLine

/-!
# The program

Files, standard input and standard output for the command line. Everything else is in the library.
-/

namespace CelShell.Main

/-- The outcome of an action that may fail, with the text of the failure. -/
def attempt (action : IO α) : IO (Except String α) := do
  try return .ok (← action) catch e => return .error (toString e)

/-- Writes to standard output. -/
def write : Shell.Writer IO := fun piece => attempt do
  let out ← IO.getStdout
  out.putStr piece
  out.flush

/-- The settings of the file at a path, or else of the user; the user need not have a file. -/
def configured : Option String → IO (Except ConfigError Settings)
  | some path => return Config.load path (← attempt (IO.FS.readBinFile path))
  | none => do
    let file := Config.file? (← IO.getEnv "XDG_CONFIG_HOME") (← IO.getEnv "HOME")
      (← IO.getEnv "APPDATA")
    match file with
    | none => return .ok {}
    | some path =>
      try return Config.load path (.ok (← IO.FS.readBinFile path))
      catch
        | .noFileOrDirectory .. => return .ok {}
        | e => return Config.load path (.error (toString e))

/-- The bytes of one line of standard input, with its line feed. -/
partial def lineBytes (input : IO.FS.Stream) (sofar : ByteArray) : IO ByteArray := do
  let byte ← input.read 1
  if byte.isEmpty then return sofar
  let sofar := sofar ++ byte
  if byte.toList = [Shell.lineFeed] then return sofar else lineBytes input sofar

/-- A session over standard input. -/
partial def session (shell : Shell) : IO (Except CommandLine.Failure Unit) := do
  discard (write shell.prompt)
  match Shell.readsOf (← lineBytes (← IO.getStdin) .empty) with
  | [] => return .ok ()
  | read :: _ =>
    match ← shell.turn write read with
    | (shell, .ok .goOn) => session shell
    | (_, .ok .terminated) => return .ok ()
    | (_, .error e) => return .error (.shell e)

/-- Begins a session. -/
def begin (o : CommandLine.Options) : IO (Except CommandLine.Failure Unit) := do
  match CommandLine.shellOf o (← configured o.config) with
  | .error e => return .error e
  | .ok shell =>
    match ← Shell.greet write with
    | .error e => return .error (.shell e)
    | .ok () => session shell

/-- Runs the program on its arguments. Only a session reads standard input. -/
def run (arguments : List String) : IO (Except CommandLine.Failure Unit) := do
  match CommandLine.parse arguments with
  | .ok (.start o) =>
    if o.eval.isNone then begin o else CommandLine.execute write configured arguments []
  | _ => CommandLine.execute write configured arguments []

end CelShell.Main

/-- Runs the program and reports what ended it early. -/
def main (arguments : List String) : IO UInt32 := do
  let result ← CelShell.Main.run arguments
  if let .error e := result then IO.eprintln ("Error: " ++ e.text)
  return CelShell.CommandLine.exitCode result
