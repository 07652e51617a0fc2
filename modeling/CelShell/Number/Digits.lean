/-!
# Digits and machine integers

Reading numerals in a base and checking that an integer fits a word. A numeral is a list of digit
characters; `ofDigits` reads it most significant digit first. `int64?` and `uint64?` are the only
way an exact integer becomes a word, so a result that does not fit is never wrapped.
-/

namespace CelShell.Number

/-- Whether a character is one of `0` to `9`. -/
def isDigit (c : Char) : Bool := '0' ≤ c && c ≤ '9'

/-- Whether a character is a hexadecimal digit of either case. -/
def isHexDigit (c : Char) : Bool :=
  isDigit c || ('a' ≤ c && c ≤ 'f') || ('A' ≤ c && c ≤ 'F')

/-- The value of a digit, letters counting from ten in either case. -/
def digitValue (c : Char) : Nat :=
  if c ≤ '9' then c.toNat - '0'.toNat
  else if c ≤ 'F' then c.toNat - 'A'.toNat + 10
  else c.toNat - 'a'.toNat + 10

/-- The number that a numeral denotes in a base. -/
def ofDigits (base : Nat) (digits : List Char) : Nat :=
  digits.foldl (fun n c => base * n + digitValue c) 0

/-- The digits of a number in base ten. -/
def toDigits (n : Nat) : List Char := Nat.toDigits 10 n

/-- An integer as a signed word, if it fits. -/
def int64? (n : Int) : Option Int64 :=
  if -0x8000000000000000 ≤ n ∧ n < 0x8000000000000000 then some (Int64.ofInt n) else none

/-- An integer as an unsigned word, if it fits. -/
def uint64? (n : Int) : Option UInt64 :=
  if 0 ≤ n ∧ n < 0x10000000000000000 then some (UInt64.ofNat n.toNat) else none

/-- The value of a numeral that has at least one digit and nothing else. -/
def natural? (digits : List Char) : Option Nat :=
  if digits ≠ [] ∧ digits.all isDigit then some (ofDigits 10 digits) else none

/-- Reads a signed word: a numeral after at most one sign. -/
def readInt64? : List Char → Option Int64
  | '-' :: digits => natural? digits >>= fun n => int64? (-n)
  | '+' :: digits => natural? digits >>= fun n => int64? n
  | digits => natural? digits >>= fun n => int64? n

/-- Reads an unsigned word: a numeral after at most a plus sign. -/
def readUInt64? : List Char → Option UInt64
  | '+' :: digits => natural? digits >>= fun n => uint64? n
  | digits => natural? digits >>= fun n => uint64? n

/-- A signed word in base ten. -/
def int64Text (n : Int64) : String :=
  let digits := String.ofList (toDigits n.toInt.natAbs)
  if n.toInt < 0 then "-" ++ digits else digits

/-- An unsigned word in base ten. -/
def uint64Text (n : UInt64) : String := String.ofList (toDigits n.toNat)

end CelShell.Number
