import CelShell.Expr.Printer
import CelShell.Format.Outline
import CelShell.Format.Structured

/-!
# Formats

The forms in which an expression can be shown, chosen by a tag: its source text, the JSON graph of
its nodes, or an outline. Showing never fails; a tag that names no format is reported in place of
the expression.
-/

namespace CelShell

/-- A form in which an expression can be shown. -/
inductive Format where
  /-- The canonical source text. -/
  | raw
  /-- The JSON graph of the nodes. -/
  | structured
  /-- The outline. -/
  | tree
  /-- What a tag asks for that names no format. -/
  | unrecognized (tag : String)
  deriving DecidableEq, Repr

namespace Format

/-- The format of a tag or of one of its aliases. -/
def ofTag (tag : String) : Format :=
  if tag = "raw" ∨ tag = "go" then raw
  else if tag = "structured" ∨ tag = "json" then structured
  else if tag = "tree" ∨ tag = "pretty" then tree
  else unrecognized tag

/-- The tag of a format. -/
def tag : Format → String
  | raw => "raw"
  | structured => "structured"
  | tree => "tree"
  | unrecognized tag => tag

/-- An expression in a format, with the width of an indentation. -/
def render (format : Format) (indent : Nat) (e : Tree) : String :=
  match format with
  | raw => e.text
  | structured => e.structured indent
  | tree => e.outline
  | unrecognized tag => "unrecognized output format " ++ tag

end Format

end CelShell
