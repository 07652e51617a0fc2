/-!
# Doubles

The binary64 numbers, in exact integer arithmetic. Every finite magnitude is a whole number of
units of `2^-1074`, the smallest positive double. A magnitude is stored as its code, the exponent
and fraction fields read as one number: codes are ordered as the magnitudes are, each next code is
the next double, and the code after the greatest finite one is infinity. `roundCode` is the only
rounding in the project; it takes an exact quotient of units and picks the nearest code, the even
one of two equally near.
-/

namespace CelShell

namespace Binary64

/-- How many codes have one exponent field, `2 ^ 52`. -/
def binade : Nat := 0x10000000000000

/-- The code of infinity, one above the greatest finite code. -/
def infinityCode : Nat := 2047 * binade

/-- The code that stands for every NaN. -/
def nanCode : Nat := infinityCode + 1

/-- How many units make the number one. -/
def one : Nat := 1 <<< 1074

/-- The magnitude of a finite code, in units. The code of infinity gets what the next double would
be worth if the range did not end there. -/
def units (code : Nat) : Nat :=
  if code < binade then code else (binade + code % binade) <<< (code / binade - 1)

/-- The greatest code whose magnitude is at most a number of units. -/
def floorCode (n : Nat) : Nat :=
  let shift := n.log2 - 52
  shift * binade + n >>> shift

/-- The code nearest to `n / d` units; of two equally near the even one. -/
def roundCode (n d : Nat) : Nat :=
  let code := floorCode (n / d)
  -- Above the greatest double nothing is left to compare with.
  if infinityCode ≤ code then infinityCode
  else
    let middle := d * (units code + units (code + 1))
    if 2 * n < middle ∨ (2 * n = middle ∧ code % 2 = 0) then code else code + 1

/-- Rounding never leaves the codes of numbers. -/
theorem roundCode_le (n d : Nat) : roundCode n d ≤ infinityCode := by
  simp only [roundCode]
  split
  · exact Nat.le_refl _
  · split <;> omega

end Binary64

open Binary64

/-- A double: a sign and the code of a magnitude. A NaN keeps its sign and nothing else. -/
structure Double where
  /-- Whether the sign bit is set. -/
  negative : Bool
  /-- The code of the magnitude, or the code of NaN. -/
  code : Nat
  /-- There is no code above that of NaN. -/
  code_le : code ≤ nanCode
  deriving DecidableEq

namespace Double

/-- The double of a sign and a rounded quotient of units. -/
def ofUnits (negative : Bool) (n d : Nat) : Double :=
  ⟨negative, roundCode n d, Nat.le_succ_of_le (roundCode_le n d)⟩

/-- The infinity of a sign. -/
def infinity (negative : Bool) : Double := ⟨negative, infinityCode, Nat.le_succ _⟩

/-- The zero of a sign. -/
def zero (negative : Bool) : Double := ⟨negative, 0, Nat.zero_le _⟩

/-- A NaN, by its sign. -/
def nan (negative : Bool) : Double := ⟨negative, nanCode, Nat.le_refl _⟩

/-- Zero stands where a double is left open. -/
instance : Inhabited Double := ⟨zero false⟩

/-- Whether a double is no number. -/
def isNaN (x : Double) : Bool := x.code == nanCode

/-- Whether a double is one of the two infinities. -/
def isInfinite (x : Double) : Bool := x.code == infinityCode

/-- Whether a double is a finite number. -/
def isFinite (x : Double) : Bool := x.code < infinityCode

/-- Whether a double is one of the two zeros. -/
def isZero (x : Double) : Bool := x.code == 0

/-- The number of units of a finite double, with its sign. -/
def toUnits (x : Double) : Int := if x.negative then -(units x.code) else units x.code

/-- The double with the other sign. -/
def neg (x : Double) : Double := { x with negative := !x.negative }

/-- The double nearest to an integer. -/
def ofInt (n : Int) : Double := ofUnits (n < 0) (n.natAbs * one) 1

/-- A finite double without its fraction. -/
def truncate (x : Double) : Int :=
  if x.negative then -(units x.code / one : Nat) else (units x.code / one : Nat)

/-- The place of a number in the order of the doubles; the two zeros share theirs. -/
def rank (x : Double) : Int := if x.negative then -x.code else x.code

/-- How two doubles compare; a NaN compares with nothing. -/
def compare? (x y : Double) : Option Ordering :=
  if x.isNaN || y.isNaN then none else some (Ord.compare x.rank y.rank)

/-- Whether two doubles are equal as numbers: the zeros are, a NaN equals nothing. -/
def equals (x y : Double) : Bool := x.compare? y == some .eq

/-- The sum, rounded once. A zero sum is negative only if both terms are. -/
def add (x y : Double) : Double :=
  if x.isNaN || y.isNaN then nan false
  else if x.isInfinite then
    -- Infinities of different signs have no sum.
    if y.isInfinite && x.negative != y.negative then nan false else x
  else if y.isInfinite then y
  else
    let sum := x.toUnits + y.toUnits
    if sum = 0 then zero (x.negative && y.negative) else ofUnits (sum < 0) sum.natAbs 1

/-- The difference, rounded once. -/
def sub (x y : Double) : Double := x.add y.neg

/-- The product, rounded once. -/
def mul (x y : Double) : Double :=
  let negative := x.negative != y.negative
  if x.isNaN || y.isNaN then nan false
  else if x.isInfinite || y.isInfinite then
    -- Infinity times zero is no number.
    if x.isZero || y.isZero then nan false else infinity negative
  else ofUnits negative (units x.code * units y.code) one

/-- The quotient, rounded once. Only zero over zero and infinity over infinity have none. -/
def div (x y : Double) : Double :=
  let negative := x.negative != y.negative
  if x.isNaN || y.isNaN then nan false
  else if x.isInfinite then if y.isInfinite then nan false else infinity negative
  else if y.isInfinite then zero negative
  else if y.isZero then if x.isZero then nan false else infinity negative
  else ofUnits negative (units x.code * one) (units y.code)

end Double

end CelShell
