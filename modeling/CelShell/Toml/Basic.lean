import CelShell.Number.Decimal
import CelShell.Table

/-!
# Configuration data

The values of the TOML format, why a text is none, and the readers from which the grammar is built.
A reader takes what it reads from the front of the remaining text.
-/

namespace CelShell

/-- A value of the format. -/
inductive Toml where
  | string (s : String)
  | integer (n : Int)
  | float (d : Double)
  | boolean (b : Bool)
  /-- A date, a time or both, as written. -/
  | datetime (text : String)
  | array (items : List Toml)
  | table (entries : List (String × Toml))
  deriving Inhabited

namespace Toml

/-- Why a text is not in the format. -/
inductive Fault where
  /-- Something else must come here. -/
  | expected (what : String)
  /-- A key is defined twice, or a table is extended where it may not be. -/
  | repeated (key : String)
  /-- A key goes through a value that is no table. -/
  | notTable (key : String)
  /-- A number is too great. -/
  | outOfRange
  /-- A date or time does not exist. -/
  | noSuchTime
  /-- Values are nested too deeply, or a key has too many parts. -/
  | tooDeep
  deriving DecidableEq, Repr

/-- The text of a fault. -/
def Fault.text : Fault → String
  | expected what => "expected " ++ what
  | repeated key => "key '" ++ key ++ "' is defined twice"
  | notTable key => "key '" ++ key ++ "' is not a table"
  | outOfRange => "number out of range"
  | noSuchTime => "no such date or time"
  | tooDeep => "nested too deeply"

/-- How many levels of values, or parts of a key, there can be. -/
def maxDepth : Nat := 79

/-- A reader: takes a part from the front of a text. -/
abbrev Reader (α : Type) := StateT (List Char) (Except Fault) α

namespace Reader

/-- Reports what should have come. -/
def expected (what : String) : Reader α := throw (.expected what)

/-- Takes a character if it comes next. -/
def accept (c : Char) : Reader Bool := do
  match ← get with
  | d :: rest =>
    if c = d then
      set rest
      return true
    else return false
  | [] => return false

/-- Takes a character that has to come next. -/
def expect (c : Char) : Reader Unit := do
  if !(← accept c) then expected ("'" ++ c.toString ++ "'")

/-- Takes a text if it comes next. -/
def acceptText (text : String) : Reader Bool := do
  let cs ← get
  if text.toList.isPrefixOf cs then
    set (cs.drop text.toList.length)
    return true
  else return false

/-- Takes characters as long as they are of a class. -/
def takeWhile (isMember : Char → Bool) : Reader (List Char) := do
  let cs ← get
  set (cs.dropWhile isMember)
  return cs.takeWhile isMember

/-- Whether a character is a blank of the format: a space or a tab. -/
def isBlank (c : Char) : Bool := c == ' ' || c == '\t'

/-- Whether a character may stand in a comment, and everywhere else but in names. -/
def isPlain (c : Char) : Bool := c == '\t' || (' ' ≤ c && c != '\x7f')

/-- Takes blanks. -/
def blanks : Reader Unit := discard (takeWhile isBlank)

/-- Takes a line end if it comes next. -/
def acceptLineEnd : Reader Bool := do
  match ← get with
  | '\n' :: rest | '\r' :: '\n' :: rest =>
    set rest
    return true
  | _ => return false

/-- Takes a comment if it comes next. -/
def comment : Reader Unit := do
  if ← accept '#' then discard (takeWhile isPlain)

/-- Takes the end of a line, with blanks and a comment before it. -/
def lineEnd : Reader Unit := do
  blanks
  comment
  if !(← acceptLineEnd) && !(← get).isEmpty then expected "a line end"

/-- A text after blanks, line ends and comments. -/
def afterGap (inComment : Bool) : List Char → List Char
  | '\n' :: rest | '\r' :: '\n' :: rest => afterGap false rest
  | c :: rest =>
    if isBlank c || (inComment && isPlain c) then afterGap inComment rest
    else if c = '#' then afterGap true rest
    else c :: rest
  | [] => []

/-- Takes blanks, line ends and comments. -/
def gap : Reader Unit := modify (afterGap false)

/-- The number of the characters that remain, as a bound for repetitions that take some. -/
def remaining : Reader Nat := return (← get).length + 1

end Reader

end Toml

end CelShell
