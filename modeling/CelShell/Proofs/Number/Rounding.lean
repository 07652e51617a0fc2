import Mathlib.Tactic.Ring
import CelShell.Number.Double

/-!
# Rounding to doubles

What the rounding of exact quotients keeps. The magnitudes of the codes increase, so the greatest
code below the magnitude of a code is that code, and a quotient that is the magnitude of a double is
rounded to that double. Rounding looks at the quotient alone, not at how it is written as a
fraction, and numbers beyond the greatest double or below half the least one are rounded to infinity
and to zero.
-/

namespace CelShell

namespace Binary64

/-- The codes of one exponent, as a power of two. -/
theorem binade_eq : binade = 2 ^ 52 := rfl

/-- The magnitude of a code of full precision, by its exponent and fraction fields. -/
theorem units_of_binade_le {code : Nat} (h : binade ≤ code) :
    units code = (binade + code % binade) * 2 ^ (code / binade - 1) := by
  unfold units
  rw [if_neg (Nat.not_lt.2 h), Nat.shiftLeft_eq]

/-- Magnitudes increase with their codes. -/
theorem units_lt_succ (code : Nat) : units code < units (code + 1) := by
  have hpos : 0 < binade := by decide
  rcases Nat.lt_or_ge (code + 1) binade with h | h
  · unfold units
    rw [if_pos h, if_pos (Nat.lt_of_succ_lt h)]
    exact Nat.lt_succ_self code
  · rw [units_of_binade_le h]
    rcases Nat.lt_or_ge code binade with hc | hc
    · -- The least code of full precision comes after the greatest one below it.
      have hcode : code + 1 = binade := by omega
      unfold units
      rw [if_pos hc, hcode, Nat.mod_self, Nat.div_self hpos]
      omega
    · rw [units_of_binade_le hc]
      have hmod : code % binade < binade := Nat.mod_lt code hpos
      have hdiv : 1 ≤ code / binade := (Nat.one_le_div_iff hpos).2 hc
      by_cases hlast : (code + 1) % binade = 0
      · -- The fraction field overflows into the exponent field.
        have hfrac : code % binade = binade - 1 := by
          rw [Nat.add_mod] at hlast
          by_contra hne
          rw [Nat.mod_eq_of_lt (by omega : 1 < binade)] at hlast
          rw [Nat.mod_eq_of_lt (by omega)] at hlast
          omega
        have hexp : (code + 1) / binade = code / binade + 1 := by
          rw [Nat.succ_div, if_pos (Nat.dvd_of_mod_eq_zero hlast)]
        have hpow : 2 ^ (code / binade + 1 - 1) = 2 * 2 ^ (code / binade - 1) := by
          rw [← Nat.pow_succ']
          congr 1
          omega
        rw [hlast, hexp, hpow, hfrac, Nat.add_zero, ← Nat.mul_assoc]
        exact Nat.mul_lt_mul_of_pos_right (by omega) (Nat.two_pow_pos _)
      · have hexp : (code + 1) / binade = code / binade := by
          rw [Nat.succ_div, if_neg fun hd => hlast (Nat.mod_eq_zero_of_dvd hd), Nat.add_zero]
        have hfrac : (code + 1) % binade = code % binade + 1 := by
          have h1 := Nat.div_add_mod (code + 1) binade
          have h2 := Nat.div_add_mod code binade
          rw [hexp] at h1
          omega
        rw [hexp, hfrac]
        exact Nat.mul_lt_mul_of_pos_right (by omega) (Nat.two_pow_pos _)

/-- The greatest code up to the magnitude of a code is that code. -/
theorem floorCode_units (code : Nat) : floorCode (units code) = code := by
  rcases Nat.lt_or_ge code binade with h | h
  · have hlog : code.log2 ≤ 52 := by
      rcases Nat.eq_zero_or_pos code with rfl | hpos
      · decide
      · exact Nat.le_of_lt_succ ((Nat.log2_lt (by omega)).2 (by rw [binade_eq] at h; omega))
    unfold floorCode units
    dsimp only
    rw [if_pos h, Nat.sub_eq_zero_of_le hlog, Nat.zero_mul, Nat.zero_add, Nat.shiftRight_zero]
  · have hpos : 0 < binade := by decide
    have hmod : code % binade < binade := Nat.mod_lt code hpos
    have hdiv : 1 ≤ code / binade := (Nat.one_le_div_iff hpos).2 h
    -- The leading bit of the magnitude stands 52 places above the last bit of its fraction field.
    have hlog : (units code).log2 = 52 + (code / binade - 1) := by
      rw [units_of_binade_le h]
      refine (Nat.log2_eq_iff ?_).2 ⟨?_, ?_⟩
      · exact (Nat.mul_pos (by omega) (Nat.two_pow_pos _)).ne'
      · rw [Nat.pow_add, ← binade_eq]
        exact Nat.mul_le_mul_right _ (Nat.le_add_right _ _)
      · have hsucc : 52 + (code / binade - 1) + 1 = 53 + (code / binade - 1) := by omega
        rw [hsucc, Nat.pow_add]
        exact Nat.mul_lt_mul_of_pos_right (by rw [binade_eq] at *; omega) (Nat.two_pow_pos _)
    have hsplit := Nat.div_add_mod code binade
    have hmul : (code / binade - 1) * binade + binade = binade * (code / binade) := by
      rw [← Nat.succ_mul, Nat.succ_eq_add_one, Nat.sub_add_cancel hdiv, Nat.mul_comm]
    unfold floorCode
    dsimp only
    rw [hlog, Nat.add_sub_cancel_left, units_of_binade_le h, Nat.shiftRight_eq_div_pow,
      Nat.mul_div_cancel _ (Nat.two_pow_pos _)]
    omega

/-- Rounding looks at a quotient, not at its fraction. -/
theorem roundCode_congr {n d n' d' : Nat} (hd : 0 < d) (hd' : 0 < d') (h : n * d' = n' * d) :
    roundCode n d = roundCode n' d' := by
  have hdiv : n / d = n' / d' := by
    rw [← Nat.mul_div_mul_right n d hd', h, Nat.mul_comm d d', Nat.mul_div_mul_right n' d' hd]
  -- Each comparison with a middle is one of products, in which the fractions are equal.
  have hcross : ∀ m, 2 * n * d' = 2 * n' * d ∧ d * m * d' = d' * m * d := fun m =>
    ⟨by rw [Nat.mul_assoc, h, Nat.mul_assoc], by ring⟩
  have hlt : ∀ m, 2 * n < d * m ↔ 2 * n' < d' * m := by
    intro m
    rw [← Nat.mul_lt_mul_right hd', (hcross m).1, (hcross m).2, Nat.mul_lt_mul_right hd]
  have heq : ∀ m, 2 * n = d * m ↔ 2 * n' = d' * m := by
    intro m
    rw [← Nat.mul_left_inj hd'.ne', (hcross m).1, (hcross m).2, Nat.mul_left_inj hd.ne']
  unfold roundCode
  rw [hdiv]
  simp only [hlt, heq]

/-- A double is rounded to itself. -/
theorem roundCode_units {code d : Nat} (hcode : code < infinityCode) (hd : 0 < d) :
    roundCode (units code * d) d = code := by
  -- The magnitude itself is below the middle between it and the next one.
  have hmiddle : 2 * (units code * d) < d * (units code + units (code + 1)) := by
    have hlt := Nat.mul_lt_mul_of_pos_left (units_lt_succ code) hd
    have hcomm := Nat.mul_comm (units code) d
    rw [Nat.mul_add]
    omega
  unfold roundCode
  rw [Nat.mul_div_cancel _ hd, floorCode_units]
  dsimp only
  rw [if_neg (Nat.not_le.2 hcode), if_pos (.inl hmiddle)]

/-- Less than half the least double is rounded to zero. -/
theorem roundCode_of_lt {n d : Nat} (h : 2 * n < d) : roundCode n d = 0 := by
  have hdiv : n / d = 0 := Nat.div_eq_of_lt (by omega)
  have hfloor : floorCode 0 = 0 := by decide
  have hunits : units 0 + units (0 + 1) = 1 := by decide
  unfold roundCode
  rw [hdiv, hfloor]
  dsimp only
  rw [if_neg (by decide), if_pos (.inl (by rw [hunits, Nat.mul_one]; exact h))]

/-- What is beyond the greatest double is rounded to infinity. -/
theorem roundCode_of_two_pow_le {n k : Nat} (hk : 2099 ≤ k) (h : 2 ^ k ≤ n) :
    roundCode n 1 = infinityCode := by
  have hlog : k ≤ n.log2 := (Nat.le_log2 (Nat.lt_of_lt_of_le (Nat.two_pow_pos k) h).ne').2 h
  have hfloor : infinityCode ≤ floorCode n := by
    unfold floorCode infinityCode
    have hmul : 2047 * binade ≤ (n.log2 - 52) * binade := Nat.mul_le_mul_right _ (by omega)
    exact Nat.le_trans hmul (Nat.le_add_right _ _)
  unfold roundCode
  rw [Nat.div_one]
  dsimp only
  rw [if_pos hfloor]

end Binary64

end CelShell
