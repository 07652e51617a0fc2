import CelShell.Number.Digits
import CelShell.Unicode.Property

/-!
# Quoted text

Two ways of writing a text between double quotes. `quote` is the string literal of the expression
language: controls become escapes and every other character stands for itself, so that reading the
literal gives the text back and a printed line is never broken. `reveal` is for messages about
tokens: it also spells out characters that a reader could not see or tell apart.
-/

namespace CelShell.Text

/-- The hexadecimal digits of a number, lower case, at least `width` of them. -/
def hexDigits (width n : Nat) : List Char :=
  let digits := Nat.toDigits 16 n
  List.replicate (width - digits.length) '0' ++ digits

/-- How a character is written inside a string literal. The code of a control has at most two
hexadecimal digits, so no control needs the escape with four of them, and there is no case for
it. -/
def quoteChar (c : Char) : List Char :=
  if c = '"' then ['\\', '"']
  else if c = '\\' then ['\\', '\\']
  else if c = '\n' then ['\\', 'n']
  else if c = '\r' then ['\\', 'r']
  else if c = '\t' then ['\\', 't']
  else if Unicode.isControl c then '\\' :: 'x' :: hexDigits 2 c.toNat
  else [c]

/-- The string literal that denotes a text. -/
def quote (s : String) : String := String.ofList ('"' :: (s.toList.flatMap quoteChar ++ ['"']))

/-- How a character is written where it must be told from every other. -/
def revealChar (c : Char) : List Char :=
  if c = '\x00' then ['\\', '0']
  else if c = '\t' then ['\\', 't']
  else if c = '\r' then ['\\', 'r']
  else if c = '\n' then ['\\', 'n']
  else if c = '"' || c = '\\' then ['\\', c]
  else if Unicode.isExtendingMark c || !Unicode.isPrintable c then
    '\\' :: 'u' :: '\x7b' :: (hexDigits 1 c.toNat ++ ['\x7d'])
  else [c]

/-- A text between double quotes with all that cannot be seen spelled out. -/
def reveal (s : String) : String := String.ofList ('"' :: (s.toList.flatMap revealChar ++ ['"']))

end CelShell.Text
