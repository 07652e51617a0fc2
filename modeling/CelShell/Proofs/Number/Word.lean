import Mathlib.Algebra.Group.Int.Defs
import Mathlib.Logic.Basic
import CelShell.Number.Digits

/-!
# Integers that fit a word

An integer becomes a word exactly if it fits one, and it is then what the word is worth. Of the
quotients of two signed words only that of the least one by minus one does not fit, and every
remainder does; quotient and divisor multiply to a number between zero and the dividend, so taking
a quotient apart never leaves the range of the words.
-/

namespace CelShell

namespace Number

variable {n x y : Int}

/-- An integer that a word of 64 bits can be worth, without a sign or with one. -/
def Fits (unsigned : Bool) (n : Int) : Prop :=
  if unsigned then 0 ≤ n ∧ n < 2 ^ 64 else -2 ^ 63 ≤ n ∧ n < 2 ^ 63

/-- What a signed word can be worth. -/
theorem fits_signed : Fits false n ↔ -2 ^ 63 ≤ n ∧ n < 2 ^ 63 := Iff.rfl

/-- What an unsigned word can be worth. -/
theorem fits_unsigned : Fits true n ↔ 0 ≤ n ∧ n < 2 ^ 64 := Iff.rfl

/-- A signed word is worth what one can be. -/
theorem fits_toInt (w : Int64) : Fits false w.toInt := ⟨w.le_toInt, w.toInt_lt⟩

/-- An unsigned word is worth what one can be. -/
theorem fits_toNat (w : UInt64) : Fits true w.toNat := by
  have hlt := w.toNat_lt
  rw [fits_unsigned]
  omega

/-- The signed word of an integer is the one that is worth it. -/
theorem int64?_eq_some_iff {w : Int64} : int64? n = some w ↔ w.toInt = n := by
  unfold int64?
  constructor
  · intro h
    split at h
    · next hrange =>
      rw [Option.some.injEq] at h
      rw [← h]
      exact Int64.toInt_ofInt_of_le hrange.1 hrange.2
    · cases h
  · rintro rfl
    have hrange : -0x8000000000000000 ≤ w.toInt ∧ w.toInt < 0x8000000000000000 := fits_toInt w
    rw [if_pos hrange, Int64.ofInt_toInt]

/-- The unsigned word of an integer is the one that is worth it. -/
theorem uint64?_eq_some_iff {w : UInt64} : uint64? n = some w ↔ (w.toNat : Int) = n := by
  unfold uint64?
  constructor
  · intro h
    split at h
    · next hrange =>
      rw [Option.some.injEq] at h
      -- The integer is not negative here, so nothing is cut off.
      have hlt : n.toNat < 2 ^ 64 := by omega
      rw [← h, UInt64.toNat_ofNat', Nat.mod_eq_of_lt hlt]
      omega
    · cases h
  · rintro rfl
    have hrange : 0 ≤ (w.toNat : Int) ∧ (w.toNat : Int) < 0x10000000000000000 := fits_toNat w
    rw [if_pos hrange, Int.toNat_natCast, UInt64.ofNat_toNat]

/-- An integer without a signed word is out of the range of those. -/
theorem int64?_eq_none_iff : int64? n = none ↔ ¬ Fits false n := by
  unfold int64?
  split
  · next h => exact iff_of_false nofun fun hno => hno h
  · next h => exact iff_of_true rfl h

/-- An integer without an unsigned word is out of the range of those. -/
theorem uint64?_eq_none_iff : uint64? n = none ↔ ¬ Fits true n := by
  unfold uint64?
  split
  · next h => exact iff_of_false nofun fun hno => hno h
  · next h => exact iff_of_true rfl h

/-- An integer that fits a signed word is what one is worth. -/
theorem exists_int64? (h : Fits false n) : ∃ w, int64? n = some w ∧ w.toInt = n := by
  obtain ⟨w, hw⟩ := Option.ne_none_iff_exists'.mp fun hnone => int64?_eq_none_iff.mp hnone h
  exact ⟨w, hw, int64?_eq_some_iff.mp hw⟩

/-- An integer that fits an unsigned word is what one is worth. -/
theorem exists_uint64? (h : Fits true n) : ∃ w, uint64? n = some w ∧ (w.toNat : Int) = n := by
  obtain ⟨w, hw⟩ := Option.ne_none_iff_exists'.mp fun hnone => uint64?_eq_none_iff.mp hnone h
  exact ⟨w, hw, uint64?_eq_some_iff.mp hw⟩

/-! ## Quotients and remainders -/

/-- The one quotient of signed words that is too great is that of the least word by minus one. -/
theorem fits_tdiv_iff (hx : Fits false x) (hy : y ≠ 0) :
    Fits false (x.tdiv y) ↔ ¬ (x = -2 ^ 63 ∧ y = -1) := by
  rw [fits_signed] at hx ⊢
  have habs : (x.tdiv y).natAbs = x.natAbs / y.natAbs := Int.natAbs_tdiv x y
  by_cases hone : y.natAbs = 1
  · -- Dividing by one or minus one keeps the magnitude.
    have hcases : y = 1 ∨ y = -1 := by omega
    rcases hcases with rfl | rfl
    · rw [Int.tdiv_one]
      omega
    · rw [Int.tdiv_neg, Int.tdiv_one]
      omega
  · have hhalf : (x.tdiv y).natAbs ≤ x.natAbs / 2 := by
      rw [habs]
      exact Nat.div_le_div_left (by omega) (by decide)
    omega

/-- A remainder is not negative unless the dividend is, and not positive unless the dividend is. -/
theorem tmod_sign (x y : Int) : (0 ≤ x → 0 ≤ x.tmod y) ∧ (x ≤ 0 → x.tmod y ≤ 0) := by
  refine ⟨Int.tmod_nonneg y, fun h => ?_⟩
  have hneg := Int.tmod_nonneg y (Int.neg_nonneg_of_nonpos h)
  rw [Int.neg_tmod] at hneg
  omega

/-- The magnitude of a remainder is below that of the divisor. -/
theorem natAbs_tmod_lt (x : Int) (hy : y ≠ 0) : (x.tmod y).natAbs < y.natAbs := by
  rw [Int.natAbs_tmod]
  exact Nat.mod_lt _ (Int.natAbs_pos.mpr hy)

/-- A quotient, multiplied again, lies between zero and the dividend. -/
theorem tdiv_mul_between (x y : Int) :
    (0 ≤ x → 0 ≤ x.tdiv y * y ∧ x.tdiv y * y ≤ x) ∧
      (x ≤ 0 → x ≤ x.tdiv y * y ∧ x.tdiv y * y ≤ 0) := by
  have hsum := Int.tdiv_mul_add_tmod x y
  have hsign := tmod_sign x y
  have habs : (x.tmod y).natAbs ≤ x.natAbs := by
    rw [Int.natAbs_tmod]
    exact Nat.mod_le _ _
  omega

end Number

end CelShell
