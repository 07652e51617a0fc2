import Mathlib.Data.List.TakeWhile
import CelShell.Number.Decimal
import CelShell.Proofs.Number.Digits
import CelShell.Proofs.Number.Rounding

/-!
# Decimals and the doubles that they denote

The code of a decimal is the rounded quotient of its exact value, whatever its size: the numbers
that are told by their size alone are those that rounding takes to zero or to infinity. So the code
is one of the value, and moving zeros between significand and exponent changes nothing. The digits
that are found for a finite double read back as that double.
-/

namespace CelShell

open Number Binary64

namespace Decimal

/-- How many binary places the units have. The number stays folded, so that no power with it as the
exponent is computed. -/
@[irreducible] def places : Nat := 1074

/-- The places of the units, unfolded. -/
theorem places_eq : places = 1074 := by
  unfold places
  rfl

/-- One is a power of two. -/
theorem one_eq : one = 2 ^ places := by
  unfold one
  rw [← places_eq, Nat.one_shiftLeft]

/-- One is not zero. -/
theorem one_pos : 0 < one := by
  rw [one_eq]
  exact Nat.two_pow_pos places

/-- Far below the least double. -/
theorem roundCode_of_exponent_lt {s k : Nat} (h : 400 + (toDigits s).length < k) :
    roundCode (s * one) (10 ^ k) = 0 := by
  obtain ⟨j, rfl⟩ : ∃ j, k = (toDigits s).length + j := ⟨k - (toDigits s).length, by omega⟩
  have hs : s < 10 ^ (toDigits s).length := lt_pow_length_toDigits s
  -- A power of ten is above that of eight, so a third of the places is enough.
  have hplaces : places + 1 ≤ 3 * j := by rw [places_eq]; omega
  have hone : 2 * one ≤ 10 ^ j := by
    rw [one_eq, ← Nat.pow_succ']
    calc 2 ^ (places + 1) ≤ 2 ^ (3 * j) := Nat.pow_le_pow_right (by decide) hplaces
      _ = (2 ^ 3) ^ j := Nat.pow_mul 2 3 j
      _ ≤ 10 ^ j := Nat.pow_le_pow_left (by decide) j
  apply roundCode_of_lt
  calc 2 * (s * one) = s * (2 * one) := by ring
    _ < 10 ^ (toDigits s).length * (2 * one) :=
        Nat.mul_lt_mul_of_pos_right hs (Nat.mul_pos (by decide) one_pos)
    _ ≤ 10 ^ (toDigits s).length * 10 ^ j := Nat.mul_le_mul_left _ hone
    _ = 10 ^ ((toDigits s).length + j) := (Nat.pow_add 10 _ j).symm

/-- Far beyond the greatest double. -/
theorem roundCode_of_lt_exponent {s k : Nat} (hs : s ≠ 0) (h : 400 < k) :
    roundCode (s * 10 ^ k * one) 1 = infinityCode := by
  have hk : 2099 ≤ 3 * k + places := by rw [places_eq]; omega
  refine roundCode_of_two_pow_le hk ?_
  calc 2 ^ (3 * k + places) = (2 ^ 3) ^ k * one := by rw [Nat.pow_add, Nat.pow_mul, one_eq]
    _ ≤ 10 ^ k * one := Nat.mul_le_mul_right _ (Nat.pow_le_pow_left (by decide) k)
    _ ≤ s * 10 ^ k * one :=
        Nat.mul_le_mul_right _ (Nat.le_mul_of_pos_left _ (Nat.pos_of_ne_zero hs))

/-- The code of a decimal is its exact value, rounded. -/
theorem toCode_eq (d : Decimal) :
    d.toCode =
      roundCode (d.significand * 10 ^ d.exponent.toNat * one) (10 ^ (-d.exponent).toNat) := by
  unfold toCode
  by_cases hzero : d.significand = 0
  · rw [if_pos (.inl hzero), hzero, Nat.zero_mul, Nat.zero_mul]
    exact (roundCode_of_lt (Nat.pow_pos (by decide))).symm
  · -- Far below the least double and far above the greatest one nothing is worked out.
    by_cases hlow : d.exponent < -400 - (toDigits d.significand).length
    · have hexp : d.exponent.toNat = 0 := by omega
      rw [if_pos (.inr hlow), hexp, Nat.pow_zero, Nat.mul_one]
      exact (roundCode_of_exponent_lt (by omega)).symm
    · rw [if_neg (not_or.2 ⟨hzero, hlow⟩)]
      by_cases hhigh : 400 < d.exponent
      · have hexp : (-d.exponent).toNat = 0 := by omega
        rw [if_pos hhigh, hexp, Nat.pow_zero]
        exact (roundCode_of_lt_exponent hzero (by omega)).symm
      · rw [if_neg hhigh]
        by_cases hpos : 0 ≤ d.exponent
        · have hexp : (-d.exponent).toNat = 0 := by omega
          rw [if_pos hpos, hexp, Nat.pow_zero]
          rfl
        · have hexp : d.exponent.toNat = 0 := by omega
          rw [if_neg hpos, hexp, Nat.pow_zero, Nat.mul_one]
          rfl

/-- Zeros after the digits count as much as the exponent. -/
theorem toCode_mul_pow (s k : Nat) (e : Int) :
    toCode ⟨s * 10 ^ k, e⟩ = toCode ⟨s, e + k⟩ := by
  rw [toCode_eq, toCode_eq]
  -- Whichever of the two exponents are negative, the powers of ten on both sides are as many.
  have hexp : k + e.toNat + (-(e + k)).toNat = (e + k).toNat + (-e).toNat := by omega
  refine roundCode_congr (Nat.pow_pos (by decide)) (Nat.pow_pos (by decide)) ?_
  calc s * 10 ^ k * 10 ^ e.toNat * one * 10 ^ (-(e + k)).toNat
      = s * one * 10 ^ (k + e.toNat + (-(e + k)).toNat) := by rw [Nat.pow_add, Nat.pow_add]; ring
    _ = s * one * 10 ^ ((e + k).toNat + (-e).toNat) := by rw [hexp]
    _ = s * 10 ^ (e + k).toNat * one * 10 ^ (-e).toNat := by rw [Nat.pow_add]; ring

/-- What is found on a grid reads back. -/
theorem toCode_of_nearestOnGrid? {halfUp : Bool} {exact code place : Nat} {d : Decimal}
    (h : nearestOnGrid? halfUp exact code place = some d) : d.toCode = code := by
  unfold nearestOnGrid? at h
  dsimp only at h
  -- Of the two candidates those are taken that read back, and the nearer one if both do.
  split at h
  · rename_i hlow hhigh
    rw [beq_iff_eq] at hlow hhigh
    rw [Option.some.injEq] at h
    split at h
    · exact h ▸ hlow
    · exact h ▸ hhigh
  · rename_i hlow _
    rw [beq_iff_eq] at hlow
    rw [Option.some.injEq] at h
    exact h ▸ hlow
  · rename_i _ hhigh
    rw [beq_iff_eq] at hhigh
    rw [Option.some.injEq] at h
    exact h ▸ hhigh
  · cases h

/-- The exact value of a double reads back. -/
theorem toCode_exact {code : Nat} (h : code < infinityCode) :
    toCode ⟨units code * Nat.pow 5 1074, -1074⟩ = code := by
  -- The decimal of a unit has as many places as its binary fraction.
  have hten : 5 ^ places * one = 10 ^ places := by rw [one_eq, ← Nat.mul_pow]
  have hup : (-1074 : Int).toNat = 0 := rfl
  have hdown : (- -1074 : Int).toNat = places := places_eq.symm
  rw [toCode_eq]
  dsimp only
  rw [hup, hdown, Nat.pow_zero, Nat.mul_one, ← places_eq, Nat.pow_eq, Nat.mul_assoc, hten]
  exact roundCode_units h (Nat.pow_pos (by decide))

/-- The fewest digits that are found for a double read back as that double. -/
theorem toCode_shortest (halfUp : Bool) {code : Nat} (h : code < infinityCode) :
    (shortest halfUp code).toCode = code := by
  unfold shortest
  dsimp only
  -- If no grid has a decimal that reads back, all the digits are taken.
  cases hfind : (List.range 17).findSome? fun i => nearestOnGrid? halfUp
      (units code * Nat.pow 5 1074) code
      ((toDigits (units code * Nat.pow 5 1074)).length - (i + 1)) with
  | none => exact toCode_exact h
  | some d =>
    obtain ⟨i, _, hi⟩ := List.exists_of_findSome?_eq_some hfind
    exact toCode_of_nearestOnGrid? hi

end Decimal

namespace Double

open Decimal

/-- The digits of a finite double are a numeral, and they read back as its magnitude when the first
of them has the weight that is found for it. -/
structure IsDigits (code : Nat) (digits : List Char) (weight : Int) : Prop where
  ne_nil : digits ≠ []
  numeral : IsNumeral digits
  toCode : toCode ⟨ofDigits 10 digits, weight - (digits.length - 1 : Nat)⟩ = code

/-- A numeral is its digits up to the last that is not zero, and then zeros. -/
theorem exists_trailing_zeros (s : List Char) :
    ∃ k, s = (s.reverse.dropWhile (· == '0')).reverse ++ List.replicate k '0' := by
  refine ⟨(s.reverse.takeWhile (· == '0')).length, ?_⟩
  have hzeros : s.reverse.takeWhile (· == '0') =
      List.replicate (s.reverse.takeWhile (· == '0')).length '0' := by
    rw [List.eq_replicate_iff]
    refine ⟨rfl, fun c hc => ?_⟩
    simpa using List.mem_takeWhile_imp hc
  rw [← List.reverse_replicate, ← hzeros, ← List.reverse_append, List.takeWhile_append_dropWhile,
    List.reverse_reverse]

/-- Leaving out the trailing zeros of a significand keeps what the digits read back as. -/
theorem isDigits_of_toCode {d : Decimal} {code : Nat} (hd : d.toCode = code) (hcode : code ≠ 0) :
    IsDigits code ((toDigits d.significand).reverse.dropWhile (· == '0')).reverse
      (d.exponent + (toDigits d.significand).length - 1) := by
  obtain ⟨k, hk⟩ := exists_trailing_zeros (toDigits d.significand)
  generalize ((toDigits d.significand).reverse.dropWhile (· == '0')).reverse = kept at hk ⊢
  have hnumeral : IsNumeral kept :=
    (isNumeral_append.1 (hk ▸ isNumeral_toDigits d.significand)).1
  have hvalue : d.significand = ofDigits 10 kept * 10 ^ k := by
    rw [← ofDigits_append_zeros hnumeral, ← hk, ofDigits_toDigits]
  have hlength : (toDigits d.significand).length = kept.length + k := by
    rw [hk, List.length_append, List.length_replicate]
  have hne : kept ≠ [] := by
    -- Without a digit the significand were zero, and so were the double.
    intro hnil
    rw [hnil] at hvalue
    have hsig : d.significand = 0 := by rw [hvalue]; exact Nat.zero_mul _
    exact hcode (hd ▸ if_pos (.inl hsig))
  refine ⟨hne, hnumeral, ?_⟩
  have hpos : 0 < kept.length := List.length_pos_iff.2 hne
  have hexp : d.exponent + (toDigits d.significand).length - 1 - (kept.length - 1 : Nat)
      = d.exponent + k := by omega
  rw [hexp, ← toCode_mul_pow, ← hvalue]
  exact hd

/-- The digits of a finite double read back as its magnitude. -/
theorem isDigits_digits {x : Double} (halfUp : Bool) (h : x.isFinite = true) :
    IsDigits x.code (x.digits halfUp).1 (x.digits halfUp).2 := by
  have hcode : x.code < infinityCode := by simpa [isFinite] using h
  unfold digits
  by_cases hzero : x.isZero = true
  · have hx : x.code = 0 := by simpa [isZero] using hzero
    rw [if_pos hzero]
    refine ⟨by simp, isNumeral_zeros 1, ?_⟩
    rw [hx, Decimal.toCode, if_pos (.inl rfl)]
  · have hx : x.code ≠ 0 := by simpa [isZero] using hzero
    rw [if_neg hzero]
    exact isDigits_of_toCode (toCode_shortest halfUp hcode) hx

end Double

end CelShell
