import CelShell.Environment
import CelShell.Text.Offset
import CelShell.Unicode.Property

/-!
# Completion

The names that can complete the word before a place in a line. Places are counted in bytes. A word
begins one byte after the last character that is neither alphanumeric nor an underscore; where that
is inside the character there is no answer.
-/

namespace CelShell

/-- A name that completes a word. -/
structure Candidate where
  /-- How the name is shown. -/
  shown : String
  /-- The name itself. -/
  replacement : String
  deriving DecidableEq, Repr, Inhabited

namespace Completion

/-- The names of the macros. -/
def macroNames : List String := ["has", "all", "exists", "exists_one", "map", "filter"]

/-- The words that are part of the language. -/
def keywords : List String := ["true", "false", "null", "in"]

/-- Whether a character can be part of a word. -/
def isWordChar (c : Char) : Bool := Unicode.isAlphanumeric c || c == '_'

/-- Whether a name can be entered as a word. -/
def isWord (name : String) : Bool :=
  match name.toList with
  | c :: _ => Unicode.isAlphabetic c
  | [] => false

/-- Removes an element that equals its predecessor by a key. -/
def dropRepeated [DecidableEq κ] (key : α → κ) : List α → List α
  | [] => []
  | [a] => [a]
  | a :: b :: rest =>
    -- The first of equal ones stays, so it is compared with the next as well.
    if key a = key b then dropRepeated key (a :: rest) else a :: dropRepeated key (b :: rest)

/-- Every name that completion knows, a function before a macro or keyword of its name. The
functions come as they are given. To put them in order and to drop repetitions among them first
would change no answer: `sorted` does both to all names, and keeps of equal ones the first. -/
def candidates (functions : List String) : List Candidate :=
  (functions.filter isWord).map (fun name => ⟨name ++ "()", name⟩)
    ++ macroNames.map (fun name => ⟨"macro " ++ name, name⟩)
    ++ keywords.map fun name => ⟨name, name⟩

/-- The candidates in order of their names, one for each name. -/
def sorted (cs : List Candidate) : List Candidate :=
  dropRepeated Candidate.replacement
    (cs.mergeSort fun a b => decide (a.replacement ≤ b.replacement))

/-- The start and the characters of the word at the end of a text. -/
def wordAtEnd? (before : List Char) : Option (Nat × List Char) :=
  let word := (before.reverse.takeWhile isWordChar).reverse
  match before.reverse.dropWhile isWordChar with
  | [] => some (0, word)
  | separator :: rest =>
    -- The byte behind a wider character is none where a text may be cut.
    if separator.utf8Size = 1 then some (Text.byteLength rest.reverse + 1, word) else none

/-- Where the word before a place begins, and the names that begin with it. -/
def complete? (functions : List String) (line : String) (place : Nat) :
    Option (Nat × List Candidate) := do
  let (before, _) ← Text.splitAt? place line.toList
  let (start, word) ← wordAtEnd? before
  return (start,
    -- Nothing is offered for the empty word.
    if word.isEmpty then []
    else sorted ((candidates functions).filter fun c => word.isPrefixOf c.replacement.toList))

end Completion

end CelShell
