import CelShell.Number.Digits
import CelShell.Number.Double

/-!
# Doubles in decimal

Reading a decimal as the nearest double, finding the fewest digits that read back as a given
double, and laying digits out as text. The search for the digits looks at the grids of one, two and
more digits in turn and stops at the first that has a point reading back; of two such points it
takes the nearer; which of two equally near ones is a matter of the format. It tests with the
reader itself, so what it finds reads back by construction. The layouts differ only in the fields
of `DoubleFormat`.
-/

namespace CelShell

open Number Binary64

/-- The number `significand * 10 ^ exponent`. -/
structure Decimal where
  /-- The digits, as one number. -/
  significand : Nat
  /-- The weight of the last digit, as a power of ten. -/
  exponent : Int
  deriving DecidableEq

namespace Decimal

/-- The code of the double nearest to a decimal. Numbers far outside the range of the doubles are
told by their size, so that no power of ten is computed for them. -/
def toCode (d : Decimal) : Nat :=
  -- No double has a power of ten beyond four hundred on either side.
  if d.significand = 0 ∨ d.exponent < -400 - (toDigits d.significand).length then 0
  else if 400 < d.exponent then infinityCode
  else if 0 ≤ d.exponent then roundCode (d.significand * Nat.pow 10 d.exponent.toNat * one) 1
  else roundCode (d.significand * one) (Nat.pow 10 (-d.exponent).toNat)

/-- The code of a decimal is never that of NaN. -/
theorem toCode_le (d : Decimal) : d.toCode ≤ infinityCode := by
  unfold toCode
  split
  · exact Nat.zero_le _
  · split
    · exact Nat.le_refl _
    · split <;> exact roundCode_le _ _

/-- The double of a sign and the magnitude nearest to a decimal. -/
def toDouble (negative : Bool) (d : Decimal) : Double :=
  ⟨negative, d.toCode, Nat.le_succ_of_le d.toCode_le⟩

/-- Reads an exponent: a numeral after at most one sign. -/
def readExponent? : List Char → Option Int
  | '-' :: digits => (natural? digits).map fun n => -n
  | '+' :: digits => (natural? digits).map fun n => n
  | digits => (natural? digits).map fun n => n

/-- Reads an unsigned decimal: digits around an optional point, at least one in all, and an
optional exponent after `e` or `E`. -/
def read? (s : List Char) : Option Decimal :=
  let whole := s.takeWhile isDigit
  let afterWhole := s.dropWhile isDigit
  let fraction := match afterWhole with
    | '.' :: rest => rest.takeWhile isDigit
    | _ => []
  let rest := match afterWhole with
    | '.' :: rest => rest.dropWhile isDigit
    | rest => rest
  -- The point only moves the weight of the last digit.
  let digits := whole ++ fraction
  let exponent? := match rest with
    | [] => some 0
    | 'e' :: exponent => readExponent? exponent
    | 'E' :: exponent => readExponent? exponent
    | _ => none
  if digits.isEmpty then none
  else exponent?.map fun exponent => ⟨ofDigits 10 digits, exponent - fraction.length⟩

/-- Of the two multiples of `10 ^ place` around an exact value, the nearest that reads back as the
code. Of two equally near it is the greater if halves go up, else the even one. The value counts
units of `10 ^ -1074`. -/
def nearestOnGrid? (halfUp : Bool) (exact code place : Nat) : Option Decimal :=
  let grid := Nat.pow 10 place
  let low : Decimal := ⟨exact / grid, place - 1074⟩
  let high : Decimal := ⟨exact / grid + 1, place - 1074⟩
  match low.toCode == code, high.toCode == code with
  | true, true =>
    -- Both read back, so the exact value is compared with what lies halfway.
    let middle := (2 * low.significand + 1) * grid
    let takeLow := 2 * exact < middle
      || (2 * exact == middle && !halfUp && low.significand % 2 == 0)
    some (if takeLow then low else high)
  | true, false => some low
  | false, true => some high
  | false, false => none

/-- The decimal of fewest digits that reads back as a finite code. Seventeen digits always suffice;
the exact value of the code stands at the end of the search. -/
def shortest (halfUp : Bool) (code : Nat) : Decimal :=
  let exact := units code * Nat.pow 5 1074
  let length := (toDigits exact).length
  ((List.range 17).findSome? fun i =>
    nearestOnGrid? halfUp exact code (length - (i + 1))).getD ⟨exact, -1074⟩

end Decimal

/-- How a finite double is laid out as text. -/
structure DoubleFormat where
  /-- Whether a number whose first digit has the weight `10 ^ e` is written without an exponent. -/
  positional : Int → Bool
  /-- Whether a whole number written without an exponent ends in `.0`. -/
  pointed : Bool
  /-- What stands between `e` and an exponent that is not negative. -/
  plus : String
  /-- Whether the greater of two equally near shortest decimals is written, not the even one. -/
  halfUp : Bool

namespace DoubleFormat

/-- Doubles in source text and in messages: positional from `1e-4` and below `1e16`, always with a
point there. -/
def source : DoubleFormat := ⟨fun e => -4 ≤ e && e < 16, true, "", true⟩

/-- Doubles converted to strings: never an exponent, and a point only before a fraction. -/
def plain : DoubleFormat := ⟨fun _ => true, false, "", true⟩

/-- Doubles in JSON: positional from `1e-5` and below `1e16`, exponents with an explicit sign. -/
def json : DoubleFormat := ⟨fun e => -5 ≤ e && e < 16, true, "+", false⟩

/-- Lays out digits, the first of which has the weight `10 ^ e`. -/
def layOut (format : DoubleFormat) (digits : List Char) (e : Int) : List Char :=
  if format.positional e then
    if e < 0 then '0' :: '.' :: (List.replicate (-e - 1).toNat '0' ++ digits)
    else
      let whole := e.toNat + 1
      -- Too few digits for the weight are filled up with zeros.
      if digits.length ≤ whole then
        digits ++ List.replicate (whole - digits.length) '0'
          ++ (if format.pointed then ['.', '0'] else [])
      else digits.take whole ++ '.' :: digits.drop whole
  else
    let mantissa := if digits.length ≤ 1 then digits else digits.take 1 ++ '.' :: digits.drop 1
    let exponent := if e < 0 then '-' :: toDigits (-e).toNat
      else format.plus.toList ++ toDigits e.toNat
    mantissa ++ 'e' :: exponent

end DoubleFormat

namespace Double

/-- The digits of a finite double without trailing zeros, and the weight of the first one as a
power of ten. Zero has one digit of weight zero. -/
def digits (halfUp : Bool) (x : Double) : List Char × Int :=
  if x.isZero then (['0'], 0)
  else
    let decimal := Decimal.shortest halfUp x.code
    let digits := toDigits decimal.significand
    ((digits.reverse.dropWhile (· == '0')).reverse, decimal.exponent + digits.length - 1)

/-- A double as text. -/
def text (format : DoubleFormat) (x : Double) : String :=
  if x.isNaN then "NaN"
  else
    -- A NaN has no sign in text.
    let sign := if x.negative then "-" else ""
    if x.isInfinite then sign ++ "inf"
    else
      let (digits, weight) := x.digits format.halfUp
      sign ++ String.ofList (format.layOut digits weight)

/-- Reads an unsigned double: a decimal, or one of the names of infinity and NaN in any case. -/
def readMagnitude? (negative : Bool) (s : List Char) : Option Double :=
  match String.ofList (s.map Char.toLower) with
  | "inf" => some (infinity negative)
  | "infinity" => some (infinity negative)
  | "nan" => some (nan negative)
  | _ => (Decimal.read? s).map (Decimal.toDouble negative)

/-- Reads a double after at most one sign. -/
def read? : List Char → Option Double
  | '-' :: rest => readMagnitude? true rest
  | '+' :: rest => readMagnitude? false rest
  | rest => readMagnitude? false rest

end Double

end CelShell
