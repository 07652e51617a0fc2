/-!
# Positions and spans

Where something stands in a source text. A position counts lines and columns from one, columns in
characters, and bytes from zero. Line zero marks the dummy position of things that stand nowhere.
-/

namespace CelShell

/-- A place between two characters of a text. -/
structure Position where
  /-- The line, counted from one. -/
  line : Nat
  /-- The column in characters, counted from one. -/
  column : Nat
  /-- The number of bytes before the place. -/
  offset : Nat
  deriving DecidableEq, Repr, Inhabited

namespace Position

/-- The place before the first character of a text. -/
def start : Position := ⟨1, 1, 0⟩

/-- The position of what stands nowhere. -/
def dummy : Position := ⟨0, 0, 0⟩

/-- The place after one more character. -/
def step (p : Position) (c : Char) : Position :=
  if c = '\n' then ⟨p.line + 1, 1, p.offset + 1⟩
  else ⟨p.line, p.column + 1, p.offset + c.utf8Size⟩

/-- The place after more characters. -/
def advance (p : Position) (s : List Char) : Position := s.foldl step p

/-- A position as `line:column`. -/
def text (p : Position) : String := toString p.line ++ ":" ++ toString p.column

end Position

/-- A stretch of a text, from a place up to a later one. -/
structure Span where
  /-- Where the stretch begins. -/
  start : Position
  /-- Where the stretch ends. -/
  stop : Position
  deriving DecidableEq, Repr, Inhabited

namespace Span

/-- The span of what stands nowhere. -/
def dummy : Span := ⟨.dummy, .dummy⟩

/-- Whether a span stands nowhere. -/
def isDummy (s : Span) : Bool := s.start.line == 0

/-- The least span that covers two; one that stands nowhere adds nothing. -/
def cover (s t : Span) : Span :=
  if s.isDummy then t
  else if t.isDummy then s
  else
    ⟨if t.start.offset < s.start.offset then t.start else s.start,
      if t.stop.offset > s.stop.offset then t.stop else s.stop⟩

/-- The number of bytes that a span covers. -/
def length (s : Span) : Nat := s.stop.offset - s.start.offset

/-- Whether a span ends at the byte where it begins. -/
def isEmpty (s : Span) : Bool := s.start.offset == s.stop.offset

/-- A span as `[line:column - line:column]`. -/
def text (s : Span) : String := "[" ++ s.start.text ++ " - " ++ s.stop.text ++ "]"

end Span

end CelShell
