/-!
# Settings

What can be configured, with the values that hold without configuration.
-/

namespace CelShell

/-- The settings of a shell. -/
structure Settings where
  /-- How many lines are kept. -/
  historySize : Nat := 100
  /-- Whether expressions are checked before they are evaluated. -/
  check : Bool := true
  /-- Whether macros are expanded. -/
  macrosOn : Bool := true
  /-- What is written after the number of a line. -/
  prompt : String := "> "
  /-- The indent of structured output. -/
  formatIndent : Nat := 2
  /-- Whether the line editor takes the keys of a modal editor. -/
  viMode : Bool := false
  deriving DecidableEq, Repr, Inhabited

end CelShell
