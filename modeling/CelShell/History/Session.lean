import CelShell.Environment
import CelShell.Format.Basic
import CelShell.History.Ring

/-!
# Sessions

The lines of a session and how they are shown again. A line is recorded before it is evaluated, so
during line `N` the log counts `N` entries and the last of them is the line itself; only lines
before it can be shown.
-/

namespace CelShell

/-- A line of a session. -/
structure Entry where
  /-- The line as it was entered. -/
  raw : String
  /-- What became of it. -/
  compiled : Except Issues Compiled

/-- Whether a line could not be read. -/
def Entry.failed (e : Entry) : Bool := e.compiled.toOption.isNone

/-- The lines of a session and how trees are laid out. -/
structure Session where
  /-- The lines. -/
  history : Ring Entry
  /-- The indent of structured output. -/
  indent : Nat

namespace Session

/-- What is shown where there is no line. -/
def noHistory : String := "No history to inspect"

/-- What is shown for a line that could not be read. -/
def failedEntry : String := "that's not numberwang"

/-- The session without lines. -/
def new (capacity indent : Nat) : Except CapacityError Session :=
  (Ring.new capacity).map fun history => ⟨history, indent⟩

/-- One more line. -/
def record (s : Session) (e : Entry) : Session := { s with history := s.history.insert e }

/-- How many lines there were. -/
def position (s : Session) : Nat := s.history.position

/-- A line in a format. -/
def render (s : Session) (format : Format) (e : Entry) : String :=
  match e.compiled with
  | .ok c => format.render s.indent c.expr
  | .error _ => failedEntry

/-- The line of a number counted from one, in a format. -/
def inspectAt (s : Session) (line : Int) (format : Format) : String :=
  if line < s.position then
    match s.history.getAbsolute? (line - 1) with
    | some e => s.render format e
    | none => noHistory
  else noHistory

/-- The line before the last one, in a format. -/
def inspectPrevious (s : Session) (format : Format) : String :=
  s.inspectAt ((s.position : Int) - 1) format

end Session

end CelShell
