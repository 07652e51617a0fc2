import CelShell.History.Session

/-!
# Introspection

The functions by which an expression reaches the session that evaluates it: `quit` ends it, and
`inspect` shows an earlier line, as text or in the format of a tag.
-/

namespace CelShell.Introspection

/-- The name of the function that ends the session. -/
def quitName : String := "quit"

/-- The name of the function that shows a line. -/
def inspectName : String := "inspect"

/-- The name under which only numbered lines are shown. -/
def inspectIntName : String := "inspect_int"

/-- The declarations of the functions. -/
def declarations : List Declaration :=
  [⟨quitName, [⟨"quit", [], .null, false⟩]⟩,
    ⟨inspectName,
      [⟨"inspect", [], .string, false⟩, ⟨"inspect_string", [.string], .string, false⟩,
        ⟨"inspect_int", [.int], .string, false⟩,
        ⟨"inspect_int_string", [.int, .string], .string, false⟩]⟩,
    ⟨inspectIntName,
      [⟨"inspect_int_alias", [.int], .string, false⟩,
        ⟨"inspect_int_string_alias", [.int, .string], .string, false⟩]⟩]

/-- Ends the session. -/
def quit : Handler
  | [] => .error .quit
  | args => refused quitName args

/-- Shows the previous line or a numbered one. -/
def inspect (s : Session) : Handler
  | [] => .ok (.string (s.inspectPrevious .raw))
  | [.string tag] => .ok (.string (s.inspectPrevious (.ofTag tag)))
  | [.int n] => .ok (.string (s.inspectAt n.toInt .raw))
  | [.int n, .string tag] => .ok (.string (s.inspectAt n.toInt (.ofTag tag)))
  | args => refused inspectName args

/-- Shows a numbered line. -/
def inspectInt (s : Session) : Handler
  | [.int n] => inspect s [.int n]
  | [.int n, .string tag] => inspect s [.int n, .string tag]
  | args => refused inspectIntName args

/-- The functions of a session. -/
def bindings (s : Session) : Bindings :=
  [(quitName, quit), (inspectName, inspect s), (inspectIntName, inspectInt s)]

end CelShell.Introspection
