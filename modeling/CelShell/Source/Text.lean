import CelShell.Source.Span
import CelShell.Text.Offset

/-!
# Source texts

A named text and its look-up by line and by span. Lines end at line feeds, so a text has one more
line than it has line feeds and its last line may be empty.
-/

namespace CelShell

/-- A text with the name under which messages cite it. -/
structure SourceText where
  /-- The name in messages. -/
  name : String
  /-- The text. -/
  content : String
  deriving DecidableEq, Repr, Inhabited

namespace SourceText

/-- The lines of a text, without the line feeds between them. -/
def splitLines : List Char → List (List Char)
  | [] => [[]]
  | c :: rest =>
    if c = '\n' then [] :: splitLines rest
    else
      match splitLines rest with
      | line :: lines => (c :: line) :: lines
      | [] => [[c]]

/-- The lines of the text. -/
def lines (source : SourceText) : List (List Char) := splitLines source.content.toList

/-- The number of lines. -/
def lineCount (source : SourceText) : Nat := source.lines.length

/-- The line of a number counted from one, without the carriage returns at its end. -/
def line? (source : SourceText) (n : Nat) : Option String :=
  if n = 0 then none
  else
    source.lines[n - 1]?.map fun line =>
      String.ofList (line.reverse.dropWhile (· == '\r')).reverse

/-- The part of the text that a span covers, if its ends are places of the text in this order. -/
def slice? (source : SourceText) (span : Span) : Option String :=
  (Text.slice? span.start.offset span.stop.offset source.content.toList).map String.ofList

end SourceText

end CelShell
