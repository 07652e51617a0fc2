/-!
# Byte offsets

Positions in a text are also counted in bytes of its UTF-8 form. A text is a list of characters
here, so a byte offset that falls inside a character has no place in it; `splitAt?` and `slice?`
answer nothing for such an offset.
-/

namespace CelShell.Text

/-- The number of bytes of a text in UTF-8. -/
def byteLength : List Char → Nat
  | [] => 0
  | c :: rest => c.utf8Size + byteLength rest

/-- Splits a text at a byte offset. There is no answer if the offset is beyond the end or inside a
character. -/
def splitAt? : Nat → List Char → Option (List Char × List Char)
  | 0, s => some ([], s)
  | _ + 1, [] => none
  | n + 1, c :: rest =>
    if c.utf8Size ≤ n + 1 then
      (splitAt? (n + 1 - c.utf8Size) rest).map fun (before, after) => (c :: before, after)
    else none

/-- The part of a text between two byte offsets. -/
def slice? (start stop : Nat) (s : List Char) : Option (List Char) := do
  let (_, rest) ← splitAt? start s
  if start ≤ stop then
    let (part, _) ← splitAt? (stop - start) rest
    return part
  else none

end CelShell.Text
