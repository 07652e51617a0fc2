import CelShell.Source.Text

/-!
# Issues

What is wrong with a source text: messages with the places they are about, and their rendering with
the line in question and a caret under the column.
-/

namespace CelShell

/-- A message about a source text. -/
structure Issue where
  /-- What is wrong. -/
  message : String
  /-- Where, unless it stands nowhere. -/
  span : Option Span
  deriving DecidableEq, Repr, Inhabited

namespace Issue

/-- A message about a place; a place that stands nowhere is dropped. -/
def about (message : String) (span : Option Span) : Issue :=
  ⟨message, span.filter fun s => !s.isDummy⟩

/-- The message on one line, after its position. -/
def brief (issue : Issue) : String :=
  match issue.span with
  | some span => span.start.text ++ ": " ++ issue.message
  | none => issue.message

/-- The message with the name of the source, the line it is about and a caret under the column. -/
def render (source : SourceText) (issue : Issue) : String :=
  match issue.span with
  | none => "ERROR: " ++ source.name ++ ": " ++ issue.message
  | some span =>
    let header := "ERROR: " ++ source.name ++ ":" ++ span.start.text ++ ": " ++ issue.message
    match source.line? span.start.line with
    | none => header
    | some line =>
      let dots := String.ofList (List.replicate (span.start.column - 1) '.')
      header ++ "\n | " ++ line ++ "\n | " ++ dots ++ "^"

end Issue

/-- The issues of one source text, in the order in which they were found. -/
structure Issues where
  /-- The source text. -/
  source : SourceText
  /-- What was found. -/
  found : List Issue
  deriving DecidableEq, Repr, Inhabited

namespace Issues

/-- No issues. -/
def none (source : SourceText) : Issues := ⟨source, []⟩

/-- One more issue. -/
def push (issues : Issues) (issue : Issue) : Issues :=
  { issues with found := issues.found ++ [issue] }

/-- Whether nothing is wrong. -/
def isEmpty (issues : Issues) : Bool := issues.found.isEmpty

/-- The issues rendered one by one. -/
def rendered (issues : Issues) : List String := issues.found.map (Issue.render issues.source)

/-- The issues rendered as one text, each on lines of its own. -/
def text (issues : Issues) : String := "\n".intercalate issues.rendered

end Issues

end CelShell
