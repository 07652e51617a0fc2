import CelShell.Token.Scan

/-!
# Tokens of a text

A text as the list of its tokens with their positions, closed by an end token. Between tokens stand
white space and comments, which `skipLayout` passes over. Reading comes to an end because a token is
never empty (`Scan.token_length_le`): each one leaves a shorter text.
-/

namespace CelShell

namespace Scan

/-! ## Every scanner leaves at most what it was given -/

/-- Leaving out a first part of a text does not make it longer. -/
theorem length_dropWhile_le (p : Char → Bool) (s : List Char) : (s.dropWhile p).length ≤ s.length :=
  (List.dropWhile_sublist p).length_le

/-- Nothing is put back after an escape. -/
theorem escape_length_le (s : List Char) : (escape s).2.length ≤ s.length := by
  unfold escape
  split
  · simp
  · split
    · simp
    · split
      · simp
      · dsimp only
        split <;> simp only [List.length_drop, List.length_cons] <;> omega

/-- Nothing is put back after the characters of a string. -/
theorem stringFrom_length_le (quote : Char) (raw : Bool) (read s : List Char) :
    (stringFrom quote raw read s).2.length ≤ s.length := by
  fun_induction stringFrom quote raw read s with
  | case1 => simp
  | case2 => simp
  | case3 => simp
  -- An escape is at least one character, so the string goes on with fewer.
  | case4 read c rest _ _ _ d after h ih =>
    have := escape_length_lt h
    simp only [List.length_cons]
    omega
  | case5 read c rest _ _ _ fault after h =>
    have := escape_length_le rest
    simp only [h] at this
    simp only [List.length_cons]
    omega
  | case6 read c rest _ _ _ ih =>
    simp only [List.length_cons]
    omega

/-- Nothing is put back after a string. -/
theorem string_length_le (quote : Char) (raw : Bool) (s : List Char) :
    (string quote raw s).2.length ≤ s.length := stringFrom_length_le quote raw [] s

/-- Nothing is put back after a fraction. -/
theorem fraction_length_le (s : List Char) : (fraction s).2.length ≤ s.length := by
  unfold fraction
  split
  · rename_i d rest
    have := length_dropWhile_le Number.isDigit rest
    split <;> simp only [List.length_cons] <;> omega
  · simp

/-- Nothing is put back after an exponent. -/
theorem exponent_length_le (s : List Char) : (exponent s).2.length ≤ s.length := by
  unfold exponent
  split
  · rename_i e d rest
    -- Where the digits are missing the text stays whole.
    have := length_dropWhile_le Number.isDigit rest
    split
    · split
      · simp only [List.length_cons]; omega
      · split
        · split
          · split <;> simp only [List.length_cons] at * <;> omega
          · simp
        · simp
    · simp
  · simp

/-- Nothing is put back after a suffix. -/
theorem suffix_length_le (s : List Char) : (suffix s).2.length ≤ s.length := by
  unfold suffix
  split
  · split <;> simp
  · simp

/-- Nothing is put back after a hexadecimal number. -/
theorem hexNumber_length_le (s : List Char) : (hexNumber s).2.length ≤ s.length :=
  Nat.le_trans (suffix_length_le _) (length_dropWhile_le _ _)

/-- A decimal number takes at least its first digit. -/
theorem decimalNumber_length_lt {c : Char} (h : Number.isDigit c = true) (rest : List Char) :
    (decimalNumber (c :: rest)).2.length ≤ rest.length := by
  -- Digits, fraction, exponent and suffix are taken one behind the other.
  have whole := length_dropWhile_le Number.isDigit rest
  have point := fraction_length_le (rest.dropWhile Number.isDigit)
  have power := exponent_length_le (fraction (rest.dropWhile Number.isDigit)).2
  have last := suffix_length_le (exponent (fraction (rest.dropWhile Number.isDigit)).2).2
  simp only [decimalNumber, List.dropWhile_cons, h, if_true]
  split <;> dsimp only <;> omega

/-- A symbol takes at least one character. -/
theorem symbol_length_lt {s rest : List Char} {t : Symbol} (h : symbol s = some (t, rest)) :
    rest.length < s.length := by
  unfold symbol at h
  split at h <;> simp only [Option.some.injEq, Prod.mk.injEq, reduceCtorEq] at h <;>
    simp only [← h.2, List.length_cons] <;> omega

/-- A token takes at least its first character. -/
theorem tokenAt_length_le (c : Char) (rest : List Char) :
    (token.tokenAt c rest).2.length ≤ rest.length := by
  unfold token.tokenAt
  split
  · exact length_dropWhile_le _ _
  · split
    · rename_i h
      exact decimalNumber_length_lt h rest
    · split
      · exact string_length_le _ _ _
      · split
        · rename_i h
          have := symbol_length_lt h
          simp only [List.length_cons] at this ⊢
          omega
        · exact Nat.le_refl _

/-- A token takes the character that it starts with, and leaves at most what follows. -/
theorem token_length_le (c : Char) (rest : List Char) :
    (token c rest).2.length ≤ rest.length := by
  unfold token
  split
  · rename_i q text
    -- The two forms that are told by their second character leave less than what follows it.
    have raw := string_length_le q true text
    have hex := hexNumber_length_le text
    split
    · simp only [List.length_cons]; omega
    · split
      · simp only [List.length_cons]; omega
      · exact tokenAt_length_le _ _
  · exact tokenAt_length_le _ _

/-! ## Between tokens -/

/-- Whether a character may stand between tokens: space, tab, carriage return, line feed or form
feed. -/
def isLayout (c : Char) : Bool :=
  c == ' ' || c == '\t' || c == '\r' || c == '\n' || c == '\x0c'

/-- Passes over white space and comments. A comment runs from two slashes to the end of the line;
the flag tells whether the text starts inside one. -/
def skipLayout : Bool → List Char → List Char
  | _, [] => []
  | true, c :: rest => skipLayout (c != '\n') rest
  | false, '/' :: '/' :: rest => skipLayout true rest
  -- One slash alone is no comment.
  | false, c :: rest => if isLayout c then skipLayout false rest else c :: rest

/-- Leaving out layout does not make a text longer. -/
theorem skipLayout_length_le (comment : Bool) (s : List Char) :
    (skipLayout comment s).length ≤ s.length := by
  fun_induction skipLayout comment s <;> simp_all only [List.length_cons, List.length_nil] <;> omega

end Scan

/-- A fault and the stretch of text that shows it. -/
structure LexError where
  /-- What is wrong. -/
  fault : TokenFault
  /-- The text from the start of the token to where the fault was seen. -/
  span : Span
  deriving DecidableEq, Repr

/-- The message of a fault. -/
def LexError.message (e : LexError) : String := e.fault.message

namespace Token

/-- The position after the part of a text that comes before a rest of it. -/
def positionBefore (rest : List Char) (p : Position) (s : List Char) : Position :=
  p.advance (s.take (s.length - rest.length))

/-- The tokens of a text that starts at a position, up to the first fault. -/
def listFrom (p : Position) (s : List Char) : Except LexError (List Token) :=
  match _layout : Scan.skipLayout false s with
  | [] =>
    let stop := p.advance s
    .ok [⟨.eof, ⟨stop, stop⟩⟩]
  | c :: text =>
    let start := positionBefore (c :: text) p s
    match _read : Scan.token c text with
    -- The fault covers what was consumed, and nothing is read behind it.
    | (.error fault, rest) => .error ⟨fault, ⟨start, positionBefore rest start (c :: text)⟩⟩
    | (.ok kind, rest) =>
      let stop := positionBefore rest start (c :: text)
      (listFrom stop rest).map fun tokens => ⟨kind, ⟨start, stop⟩⟩ :: tokens
termination_by s.length
decreasing_by
  have layout := Scan.skipLayout_length_le false s
  -- The token takes at least a character of what the layout left.
  have token := Scan.token_length_le c text
  simp only [_layout, List.length_cons] at layout
  simp only [_read] at token
  omega

/-- The tokens of a text, the last of which marks its end; or the first fault. -/
def list (source : String) : Except LexError (List Token) := listFrom .start source.toList

end Token

end CelShell
