import CelShell.Unicode.Tables

/-!
# Character properties

The tests on characters that the lexer, the printers and the completion use. Core's classes of
`Char` know ASCII only; these follow the tables of the Unicode Character Database.
-/

namespace CelShell.Unicode

/-- Whether a character may start an identifier: the underscore or a member of `XID_Start`. -/
def isIdentifierStart (c : Char) : Bool := c == '_' || xidStart.contain c.toNat

/-- Whether a character may continue an identifier, a member of `XID_Continue`. -/
def isIdentifierContinue (c : Char) : Bool :=
  xidStart.contain c.toNat || xidExtend.contain c.toNat

/-- Whether a character is alphabetic. -/
def isAlphabetic (c : Char) : Bool := alphabetic.contain c.toNat

/-- Whether a character is alphabetic or numeric. -/
def isAlphanumeric (c : Char) : Bool := alphabetic.contain c.toNat || numeric.contain c.toNat

/-- Whether a character is white space. -/
def isWhiteSpace (c : Char) : Bool := whiteSpace.contain c.toNat

/-- Whether a character is a control, general category `Cc`. -/
def isControl (c : Char) : Bool := c.toNat < 0x20 || (0x7f ≤ c.toNat && c.toNat ≤ 0x9f)

/-- Whether a character has a glyph of its own; the space counts as one. -/
def isPrintable (c : Char) : Bool := c == ' ' || !unprintable.contain c.toNat

/-- Whether a character is a mark on the grapheme before it, so that it has no place of its own. -/
def isExtendingMark (c : Char) : Bool := extendingMarks.contain c.toNat

/-- A text without the white space at its two ends. -/
def trim (s : List Char) : List Char :=
  ((s.dropWhile isWhiteSpace).reverse.dropWhile isWhiteSpace).reverse

/-- Whether a text is nothing but white space. -/
def isBlank (s : List Char) : Bool := s.all isWhiteSpace

end CelShell.Unicode
