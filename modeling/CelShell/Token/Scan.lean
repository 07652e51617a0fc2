import CelShell.Token.Basic

/-!
# Scanning one token

How a single token is read off the front of a text. Every scanner answers with what it read, or
with what is wrong, and with the text that it has not consumed; so the characters that belong to a
token, or to a fault, are those before the rest. No scanner knows positions.
-/

namespace CelShell

open Number

/-- What can be wrong with a token. -/
inductive TokenFault where
  /-- The line or the text ends inside a string literal. -/
  | unterminatedString
  /-- A backslash that starts no escape, with what follows it. -/
  | invalidEscape (sequence : String)
  /-- A number that its type cannot hold, or a hexadecimal prefix without digits. -/
  | invalidNumber (text : String)
  /-- A character that starts no token. -/
  | unexpectedChar (c : Char)
  deriving DecidableEq, Repr

/-- The message of a fault. -/
def TokenFault.message : TokenFault → String
  | unterminatedString => "unterminated string literal"
  | invalidEscape sequence => "invalid escape sequence: " ++ sequence
  | invalidNumber text => "invalid number literal: " ++ text
  | unexpectedChar c => "unexpected character: '" ++ c.toString ++ "'"

namespace Scan

/-- What was read, or what is wrong, and the text after it. -/
abbrev Result (α : Type) := Except TokenFault α × List Char

/-! ## Strings -/

/-- The character with a code, unless the code is none of a character. -/
def char? (n : Nat) : Option Char := if n.isValidChar then some (Char.ofNat n) else none

/-- The character that a one-letter escape stands for. -/
def simpleEscape? : Char → Option Char
  | 'n' => some '\n'
  | 'r' => some '\r'
  | 't' => some '\t'
  | 'a' => some '\x07'
  | 'b' => some '\x08'
  | 'f' => some '\x0c'
  | 'v' => some '\x0b'
  | '\\' => some '\\'
  | '"' => some '"'
  | '\'' => some '\''
  | '\u0060' => some '\u0060'
  | '?' => some '?'
  | _ => none

/-- How many hexadecimal digits follow the letter of a numeric escape. -/
def escapeWidth? : Char → Option Nat
  | 'x' => some 2
  | 'u' => some 4
  | 'U' => some 8
  | _ => none

/-- Reads what follows a backslash. -/
def escape : List Char → Result Char
  | [] => (.error .unterminatedString, [])
  | c :: rest =>
    match simpleEscape? c with
    | some d => (.ok d, rest)
    | none =>
      match escapeWidth? c with
      | none => (.error (.invalidEscape (String.ofList ['\\', c])), rest)
      | some width =>
        -- Fewer digits than the width are consumed as well, as they belong to the fault.
        let digits := (rest.take width).takeWhile isHexDigit
        let after := rest.drop digits.length
        let decoded := if digits.length = width then char? (ofDigits 16 digits) else none
        match decoded with
        | some d => (.ok d, after)
        | none => (.error (.invalidEscape (String.ofList ('\\' :: c :: digits))), after)

/-- An escape that was read took at least one character. -/
theorem escape_length_lt {s rest : List Char} {c : Char} (h : escape s = (.ok c, rest)) :
    rest.length < s.length := by
  unfold escape at h
  split at h
  · simp at h
  · split at h
    · simp only [Prod.mk.injEq] at h
      simp [← h.2]
    · split at h
      · simp at h
      · dsimp only at h
        split at h <;> simp only [Prod.mk.injEq] at h
        · simp only [← h.2, List.length_drop, List.length_cons]
          omega
        · simp at h

/-- Reads a string up to its closing quote. A raw string has no escapes. The text read so far is
kept in reverse. -/
def stringFrom (quote : Char) (raw : Bool) (read : List Char) (s : List Char) :
    Result (List Char) :=
  match s with
  | [] => (.error .unterminatedString, [])
  | c :: rest =>
    -- No string goes on behind its line.
    if c = '\n' then (.error .unterminatedString, rest)
    else if c = quote then (.ok read.reverse, rest)
    else if c = '\\' && !raw then
      match _h : escape rest with
      | (.ok d, after) => stringFrom quote raw (d :: read) after
      | (.error fault, after) => (.error fault, after)
    else stringFrom quote raw (c :: read) rest
termination_by s.length
decreasing_by
  · have := escape_length_lt _h
    simp only [List.length_cons]
    omega
  · simp

/-- Reads a string literal whose opening quote was consumed. -/
def string (quote : Char) (raw : Bool) (s : List Char) : Result Kind :=
  let (read, rest) := stringFrom quote raw [] s
  (read.map fun text => .literal (.string (String.ofList text)), rest)

/-! ## Numbers -/

/-- Reads a fraction, if there is one; a point belongs to a number only before a digit. -/
def fraction (s : List Char) : List Char × List Char :=
  match s with
  -- Without the digit, the point selects a field.
  | '.' :: d :: rest =>
    if isDigit d then ('.' :: d :: rest.takeWhile isDigit, rest.dropWhile isDigit) else ([], s)
  | _ => ([], s)

/-- Reads an exponent, if there is one; an `e` belongs to a number only before a digit, with or
without a sign between them. The mark becomes a lower case `e`. -/
def exponent (s : List Char) : List Char × List Char :=
  match s with
  | e :: d :: rest =>
    if e = 'e' || e = 'E' then
      -- The mark and its sign are consumed only with a digit behind them.
      if isDigit d then ('e' :: d :: rest.takeWhile isDigit, rest.dropWhile isDigit)
      else if d = '+' || d = '-' then
        match rest with
        | digit :: _ =>
          if isDigit digit then
            ('e' :: d :: rest.takeWhile isDigit, rest.dropWhile isDigit)
          else ([], s)
        | [] => ([], s)
      else ([], s)
    else ([], s)
  | _ => ([], s)

/-- Reads the suffix of an unsigned number, if there is one. -/
def suffix (s : List Char) : Bool × List Char :=
  match s with
  | c :: rest => if c = 'u' || c = 'U' then (true, rest) else (false, s)
  | [] => (false, [])

/-- A constant that was read, or the fault of a number that does not fit. -/
def numberOr (text : List Char) : Option Literal → Except TokenFault Kind
  | some value => .ok (.literal value)
  | none => .error (.invalidNumber (String.ofList text))

/-- The integer constant of a value, signed or unsigned, if the type has it. -/
def integer? (unsigned : Bool) (n : Nat) : Option Literal :=
  if unsigned then (uint64? n).map .uint else (int64? n).map .int

/-- Reads a hexadecimal number whose `0x` was consumed. -/
def hexNumber (s : List Char) : Result Kind :=
  let digits := s.takeWhile isHexDigit
  let (unsigned, rest) := suffix (s.dropWhile isHexDigit)
  let value := if digits.isEmpty then none else integer? unsigned (ofDigits 16 digits)
  (numberOr ('0' :: 'x' :: digits) value, rest)

/-- The double that a decimal denotes, if it is finite. -/
def finite? (text : List Char) : Option Double :=
  ((Decimal.read? text).map (Decimal.toDouble false)).filter Double.isFinite

/-- Reads a decimal number. -/
def decimalNumber (s : List Char) : Result Kind :=
  let whole := s.takeWhile isDigit
  let (point, afterPoint) := fraction (s.dropWhile isDigit)
  let (power, afterPower) := exponent afterPoint
  let text := whole ++ point ++ power
  -- Only a number without point and exponent is an integer and may have a suffix.
  if point.isEmpty && power.isEmpty then
    let (unsigned, rest) := suffix afterPower
    let shown := if unsigned then text ++ ['u'] else text
    (numberOr shown (integer? unsigned (ofDigits 10 whole)), rest)
  else (numberOr text ((finite? text).map .double), afterPower)

/-! ## Names and symbols -/

/-- The token that a name stands for: a keyword, a constant or an identifier. -/
def wordKind (name : String) : Kind :=
  if name = "true" then .literal (.bool true)
  else if name = "false" then .literal (.bool false)
  else if name = "null" then .literal .null
  else if name = "in" then .keywordIn
  else .ident name

/-- Reads a symbol; of two symbols that fit it is the longer. -/
def symbol (s : List Char) : Option (Symbol × List Char) :=
  match s with
  -- Symbols of two characters come first.
  | '=' :: '=' :: rest => some (.equals, rest)
  | '!' :: '=' :: rest => some (.notEquals, rest)
  | '<' :: '=' :: rest => some (.lessEquals, rest)
  | '>' :: '=' :: rest => some (.greaterEquals, rest)
  | '&' :: '&' :: rest => some (.and, rest)
  | '|' :: '|' :: rest => some (.or, rest)
  | '+' :: rest => some (.plus, rest)
  | '-' :: rest => some (.minus, rest)
  | '*' :: rest => some (.star, rest)
  | '/' :: rest => some (.slash, rest)
  | '%' :: rest => some (.percent, rest)
  | '<' :: rest => some (.less, rest)
  | '>' :: rest => some (.greater, rest)
  | '!' :: rest => some (.not, rest)
  | '?' :: rest => some (.question, rest)
  | '(' :: rest => some (.leftParen, rest)
  | ')' :: rest => some (.rightParen, rest)
  | '[' :: rest => some (.leftBracket, rest)
  | ']' :: rest => some (.rightBracket, rest)
  | '\x7b' :: rest => some (.leftBrace, rest)
  | '\x7d' :: rest => some (.rightBrace, rest)
  | ',' :: rest => some (.comma, rest)
  | ':' :: rest => some (.colon, rest)
  | '.' :: rest => some (.dot, rest)
  | _ => none

/-- Whether a character is a quote that may delimit a string. -/
def isQuote (c : Char) : Bool := c == '"' || c == '\''

/-- Reads the token that starts with a character. -/
def token (c : Char) (rest : List Char) : Result Kind :=
  match rest with
  | q :: text =>
    -- These two begin like a name and like a number, so they are looked at first.
    if (c = 'r' || c = 'R') && isQuote q then string q true text
    else if c = '0' && (q = 'x' || q = 'X') then hexNumber text
    else tokenAt c rest
  | [] => tokenAt c rest
where
  /-- Reads a token that is neither a raw string nor a hexadecimal number. -/
  tokenAt (c : Char) (rest : List Char) : Result Kind :=
    if Unicode.isIdentifierStart c then
      (.ok (wordKind (String.ofList (c :: rest.takeWhile Unicode.isIdentifierContinue))),
        rest.dropWhile Unicode.isIdentifierContinue)
    else if isDigit c then decimalNumber (c :: rest)
    else if isQuote c then string c false rest
    else
      match symbol (c :: rest) with
      | some (s, after) => (.ok (.symbol s), after)
      | none => (.error (.unexpectedChar c), rest)

end Scan

end CelShell
