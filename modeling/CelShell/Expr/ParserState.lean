import CelShell.Expr.Parser

/-!
# Parsing step by step

A parser whose user decides on each step: consume or test the current token, open and close levels
of nesting, or read a whole expression. Unlike a single run it goes on after an error, and it keeps
every error that it has reported.
-/

namespace CelShell

/-- A parser between two steps. -/
structure ParserState where
  /-- Where it stands in the tokens. -/
  cursor : Cursor
  /-- How many levels of nesting are open. -/
  depth : Nat
  /-- The errors reported so far, oldest first. -/
  errors : List SyntaxError

namespace ParserState

/-- A parser at the start of a list of tokens. -/
def ofTokens (tokens : List Token) (macrosOn : Bool) : ParserState :=
  ⟨⟨tokens, .dummy, 1, macrosOn⟩, 0, []⟩

/-- The current token. -/
def current? (s : ParserState) : Option Token := s.cursor.current?

/-- The token after the current one. -/
def peek? (s : ParserState) : Option Token := s.cursor.rest[1]?

/-- The error reported first. -/
def firstError? (s : ParserState) : Option SyntaxError := s.errors.head?

/-- Reports an error. -/
def report (s : ParserState) (e : SyntaxError) : ParserState :=
  { s with errors := s.errors ++ [e] }

/-- Consumes the current token. -/
def bump (s : ParserState) : Option Token × ParserState :=
  (s.current?, { s with cursor := s.cursor.skip })

/-- Consumes the current token if it is of a kind. -/
def skip (s : ParserState) (kind : Kind) : Bool × ParserState :=
  if s.cursor.at? kind then (true, s.bump.2) else (false, s)

/-- Consumes the current token, which has to be of a kind. -/
def expect (s : ParserState) (kind : Kind) : Option Token × ParserState :=
  if s.cursor.at? kind then s.bump else (none, s.report (s.cursor.expectedError kind))

/-- Reports the current token as one that nothing allows. -/
def unexpected (s : ParserState) : ParserState := s.report s.cursor.unexpectedError

/-- Opens a level of nesting, unless the limit is reached. -/
def enter (s : ParserState) : Bool × ParserState :=
  if maxDepth ≤ s.depth then (false, s.report s.cursor.tooDeepError)
  else (true, { s with depth := s.depth + 1 })

/-- Closes a level of nesting. -/
def leave (s : ParserState) : ParserState := { s with depth := s.depth - 1 }

/-- Sets the number of open levels. -/
def restore (s : ParserState) (depth : Nat) : ParserState := { s with depth }

/-- Reads an expression. What its nesting opened is closed again however reading ends, and a failure
reports at most one error. -/
def expr (s : ParserState) : Option Tree × ParserState :=
  match Parser.expr (maxDepth - s.depth) s.cursor with
  | .ok tree cursor => (some tree, { s with cursor })
  | .error (some e) cursor => (none, { s with cursor }.report e)
  | .error none cursor => (none, { s with cursor })

end ParserState

end CelShell
