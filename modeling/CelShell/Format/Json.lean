import CelShell.Number.Decimal
import CelShell.Text.Quoted

/-!
# JSON values and their text

The JSON values that the structured format writes, and their layout over several lines: each
element and each field on a line of its own, indented by its depth, and nothing between the
brackets of an empty array or object.
-/

namespace CelShell

/-- A JSON value. -/
inductive Json where
  | null
  | bool (b : Bool)
  | integer (n : Int)
  | double (d : Double)
  | string (s : String)
  | array (elements : List Json)
  /-- Fields in the order in which they are written. -/
  | object (fields : List (String × Json))
  deriving Inhabited

namespace Json

/-- How a character is written inside a JSON string. -/
def escapeChar (c : Char) : List Char :=
  if c = '"' then ['\\', '"']
  else if c = '\\' then ['\\', '\\']
  else if c = '\x08' then ['\\', 'b']
  else if c = '\x0c' then ['\\', 'f']
  else if c = '\n' then ['\\', 'n']
  else if c = '\r' then ['\\', 'r']
  else if c = '\t' then ['\\', 't']
  else if c.toNat < 0x20 then '\\' :: 'u' :: Text.hexDigits 4 c.toNat
  else [c]

/-- A text as a JSON string. -/
def quote (s : String) : String :=
  String.ofList ('"' :: (s.toList.flatMap escapeChar ++ ['"']))

/-- An integer in base ten. -/
def integerText (n : Int) : String :=
  let digits := String.ofList (Number.toDigits n.natAbs)
  if n < 0 then "-" ++ digits else digits

/-- The start of a line at a depth. -/
def lineStart (indent depth : Nat) : String :=
  "\n" ++ String.ofList (List.replicate (indent * depth) ' ')

mutual

/-- The text of a value whose brackets open at a depth. There is no number for NaN and the
infinities, so they are written as null. -/
def write (indent depth : Nat) : Json → String
  | null => "null"
  | bool b => if b then "true" else "false"
  | integer n => integerText n
  | double d => if d.isFinite then d.text .json else "null"
  | string s => quote s
  | array [] => "[]"
  | array (e :: rest) =>
    "[" ++ lineStart indent (depth + 1) ++ write indent (depth + 1) e
      ++ writeElements indent (depth + 1) rest ++ lineStart indent depth ++ "]"
  | object [] => "\x7b\x7d"
  | object ((k, v) :: rest) =>
    "\x7b" ++ lineStart indent (depth + 1) ++ quote k ++ ": " ++ write indent (depth + 1) v
      ++ writeFields indent (depth + 1) rest ++ lineStart indent depth ++ "\x7d"

/-- The elements after the first. -/
def writeElements (indent depth : Nat) : List Json → String
  | [] => ""
  | e :: rest =>
    "," ++ lineStart indent depth ++ write indent depth e ++ writeElements indent depth rest

/-- The fields after the first. -/
def writeFields (indent depth : Nat) : List (String × Json) → String
  | [] => ""
  | (k, v) :: rest =>
    "," ++ lineStart indent depth ++ quote k ++ ": " ++ write indent depth v
      ++ writeFields indent depth rest

end

/-- The text of a value, each level indented by a number of spaces. -/
def text (indent : Nat) (value : Json) : String := value.write indent 0

end Json

end CelShell
