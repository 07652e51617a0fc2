import CelShell.Toml.Basic

/-!
# Texts and keys of configuration data

Texts come in four forms: between double quotes with escapes or between single quotes without, on
one line or, between triple quotes, on several. Keys are texts on one line or bare words, joined by
dots.
-/

namespace CelShell.Toml

/-- The character that an escape of one letter stands for. -/
def escaped? : Char → Option Char
  | 'b' => some '\x08'
  | 't' => some '\t'
  | 'n' => some '\n'
  | 'f' => some '\x0c'
  | 'r' => some '\r'
  | '"' => some '"'
  | '\\' => some '\\'
  | _ => none

/-- The character of a numeral in base sixteen. -/
def scalar? (digits : List Char) : Option Char :=
  if digits.all Number.isHexDigit then
    let n := Number.ofDigits 16 digits
    if n.isValidChar then some (Char.ofNat n) else none
  else none

/-- What a text reader gives: the characters of the text, and what follows its closing quotes. -/
abbrev TextResult := Except Fault (List Char × List Char)

/-- One more character in front of a text. -/
def TextResult.cons (c : Char) (r : TextResult) : TextResult :=
  r.map fun (text, rest) => (c :: text, rest)

/-- A character that has to exist, in front of a text. -/
def TextResult.consScalar (c : Option Char) (r : TextResult) : TextResult :=
  match c with
  | some c => r.cons c
  | none => .error (.expected "an escape")

/-- Whether a line of nothing but blanks comes next. -/
def endsLine (cs : List Char) : Bool :=
  match cs.dropWhile Reader.isBlank with
  | '\n' :: _ | '\r' :: '\n' :: _ => true
  | _ => false

/-- A text with escapes, after its opening quote. -/
def basicText : List Char → TextResult
  | [] => .error (.expected "a closing quote")
  | '"' :: rest => .ok ([], rest)
  | '\\' :: 'u' :: a :: b :: c :: d :: rest =>
    (basicText rest).consScalar (scalar? [a, b, c, d])
  | '\\' :: 'U' :: a :: b :: c :: d :: e :: f :: g :: h :: rest =>
    (basicText rest).consScalar (scalar? [a, b, c, d, e, f, g, h])
  | '\\' :: c :: rest => (basicText rest).consScalar (escaped? c)
  | c :: rest =>
    if Reader.isPlain c then (basicText rest).cons c else .error (.expected "a closing quote")

/-- A text without escapes, after its opening quote. -/
def literalText : List Char → TextResult
  | [] => .error (.expected "a closing quote")
  | '\'' :: rest => .ok ([], rest)
  | c :: rest =>
    if Reader.isPlain c then (literalText rest).cons c else .error (.expected "a closing quote")

/-- A text with escapes on several lines, after its opening quotes. A backslash at the end of a
line hides it and all blanks and line ends that follow; the flag says that these are being
skipped. -/
def basicLines (skipping : Bool) : List Char → TextResult
  | [] => .error (.expected "closing quotes")
  -- Up to two quotes may stand right before the closing ones.
  | '"' :: '"' :: '"' :: '"' :: '"' :: rest => .ok (['"', '"'], rest)
  | '"' :: '"' :: '"' :: '"' :: rest => .ok (['"'], rest)
  | '"' :: '"' :: '"' :: rest => .ok ([], rest)
  | '\r' :: '\n' :: rest =>
    if skipping then basicLines true rest else (basicLines false rest).cons '\n'
  | '\\' :: 'u' :: a :: b :: c :: d :: rest =>
    (basicLines false rest).consScalar (scalar? [a, b, c, d])
  | '\\' :: 'U' :: a :: b :: c :: d :: e :: f :: g :: h :: rest =>
    (basicLines false rest).consScalar (scalar? [a, b, c, d, e, f, g, h])
  | '\\' :: c :: rest =>
    if endsLine (c :: rest) then basicLines true (c :: rest)
    else (basicLines false rest).consScalar (escaped? c)
  | c :: rest =>
    if skipping && (Reader.isBlank c || c == '\n') then basicLines true rest
    else if Reader.isPlain c || c == '\n' then (basicLines false rest).cons c
    else .error (.expected "closing quotes")

/-- A text without escapes on several lines, after its opening quotes. -/
def literalLines : List Char → TextResult
  | [] => .error (.expected "closing quotes")
  -- Up to two quotes may stand right before the closing ones.
  | '\'' :: '\'' :: '\'' :: '\'' :: '\'' :: rest => .ok (['\'', '\''], rest)
  | '\'' :: '\'' :: '\'' :: '\'' :: rest => .ok (['\''], rest)
  | '\'' :: '\'' :: '\'' :: rest => .ok ([], rest)
  | '\r' :: '\n' :: rest => (literalLines rest).cons '\n'
  | c :: rest =>
    if Reader.isPlain c || c == '\n' then (literalLines rest).cons c
    else .error (.expected "closing quotes")

namespace Reader

/-- A reader of texts as one of any values. -/
def ofText (f : List Char → TextResult) : Reader String := fun cs =>
  (f cs).map fun (text, rest) => (String.ofList text, rest)

/-- A text in one of the four forms. A line end right after triple quotes does not count. -/
def text : Reader String := do
  if ← acceptText "\"\"\"" then
    discard acceptLineEnd
    ofText (basicLines false)
  else if ← acceptText "'''" then
    discard acceptLineEnd
    ofText literalLines
  else if ← accept '"' then ofText basicText
  else if ← accept '\'' then ofText literalText
  else expected "a string"

/-- Whether a character can be part of a bare key. -/
def isKeyChar (c : Char) : Bool := c.isAlphanum || c == '_' || c == '-'

/-- One part of a key. -/
def keyPart : Reader String := do
  if ← accept '"' then ofText basicText
  else if ← accept '\'' then ofText literalText
  else
    match ← takeWhile isKeyChar with
    | [] => expected "a key"
    | word => return String.ofList word

/-- The parts of a key, joined by dots, with at most a number of parts. -/
def keyParts : Nat → Reader (List String)
  | 0 => throw .tooDeep
  | budget + 1 => do
    blanks
    let part ← keyPart
    blanks
    if ← accept '.' then return part :: (← keyParts budget)
    else return [part]

/-- A key. -/
def key : Reader (List String) := keyParts maxDepth

end Reader

end CelShell.Toml
