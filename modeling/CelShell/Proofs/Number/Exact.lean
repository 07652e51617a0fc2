import CelShell.Proofs.Number.Decimal

/-!
# Integers that are doubles

An integer is always rounded to a number, never to a NaN. A number of units with a significand of 53
bits is the magnitude of a double, and up to `2 ^ 53` every integer is such a number. So these
integers are rounded to themselves, and no two of them to the same double.
-/

namespace CelShell

open Binary64 Decimal

namespace Binary64

/-- The code of zero has the magnitude zero. -/
theorem units_zero : units 0 = 0 := by decide

/-- A significand of 53 bits, moved by fewer places than there are exponents, is the magnitude of a
finite code. -/
theorem exists_units {m p : Nat} (hlow : binade ≤ m) (hhigh : m < 2 * binade) (hp : p < 2046) :
    ∃ code < infinityCode, units code = m * 2 ^ p := by
  have hpos : 0 < binade := by decide
  -- The code is that of the exponent, with the significand less its first bit behind it.
  have hdiv : ((p + 1) * binade + (m - binade)) / binade = p + 1 := by
    rw [Nat.mul_comm, Nat.mul_add_div hpos, Nat.div_eq_of_lt (by omega), Nat.add_zero]
  have hmod : ((p + 1) * binade + (m - binade)) % binade = m - binade := by
    rw [Nat.mul_comm, Nat.mul_add_mod, Nat.mod_eq_of_lt (by omega)]
  have hle : binade ≤ (p + 1) * binade + (m - binade) :=
    Nat.le_add_right_of_le (Nat.le_mul_of_pos_left binade (Nat.succ_pos p))
  refine ⟨(p + 1) * binade + (m - binade), ?_, ?_⟩
  · calc (p + 1) * binade + (m - binade) < (p + 1) * binade + binade := by omega
      _ = (p + 2) * binade := (Nat.succ_mul (p + 1) binade).symm
      _ ≤ infinityCode := Nat.mul_le_mul_right binade (by omega)
  · rw [units_of_binade_le hle, hdiv, hmod, Nat.add_sub_cancel, Nat.add_sub_of_le hlow]

/-- An integer up to `2 ^ 53` is the magnitude of a finite code. -/
theorem exists_units_of_le {n : Nat} (hn : n ≤ 2 ^ 53) :
    ∃ code < infinityCode, units code = n * one := by
  rcases Nat.eq_zero_or_pos n with rfl | hpos
  · exact ⟨0, by decide, by rw [units_zero, Nat.zero_mul]⟩
  rcases Nat.eq_or_lt_of_le hn with rfl | hlt
  · -- The power itself has one bit more, but all except the first are zeros.
    obtain ⟨code, hcode, hunits⟩ := exists_units (m := binade) (p := places + 1) (Nat.le_refl _)
      (by decide) (by rw [places_eq]; decide)
    refine ⟨code, hcode, ?_⟩
    rw [hunits, one_eq, binade_eq, ← Nat.pow_add, ← Nat.pow_add]
    congr 1
    omega
  · -- Otherwise the significand has its first bit in place after as many more places.
    have hlog : n.log2 < 53 := (Nat.log2_lt hpos.ne').2 hlt
    have hself : 2 ^ n.log2 ≤ n := Nat.log2_self_le hpos.ne'
    have hnext : n < 2 ^ (n.log2 + 1) := Nat.lt_log2_self
    have hlow : binade ≤ n * 2 ^ (52 - n.log2) := by
      calc binade = 2 ^ n.log2 * 2 ^ (52 - n.log2) := by
            rw [binade_eq, ← Nat.pow_add]
            congr 1
            omega
        _ ≤ n * 2 ^ (52 - n.log2) := Nat.mul_le_mul_right _ hself
    have hhigh : n * 2 ^ (52 - n.log2) < 2 * binade := by
      calc n * 2 ^ (52 - n.log2) < 2 ^ (n.log2 + 1) * 2 ^ (52 - n.log2) :=
            Nat.mul_lt_mul_of_pos_right hnext (Nat.two_pow_pos _)
        _ = 2 * binade := by
            rw [binade_eq, ← Nat.pow_add, ← Nat.pow_succ']
            congr 1
            omega
    have hplaces : 52 - n.log2 ≤ places := by
      rw [places_eq]
      omega
    obtain ⟨code, hcode, hunits⟩ := exists_units hlow hhigh
      (p := places - (52 - n.log2)) (by rw [places_eq]; omega)
    refine ⟨code, hcode, ?_⟩
    calc units code = n * (2 ^ (52 - n.log2) * 2 ^ (places - (52 - n.log2))) := by
          rw [hunits, Nat.mul_assoc]
      _ = n * one := by rw [← Nat.pow_add, Nat.add_sub_of_le hplaces, one_eq]

end Binary64

namespace Double

variable {x y : Int}

/-- No integer is converted to a NaN. -/
theorem isNaN_ofInt (n : Int) : (ofInt n).isNaN = false := by
  have hle : (ofInt n).code ≤ infinityCode := roundCode_le _ _
  have hne : (ofInt n).code ≠ nanCode := Nat.ne_of_lt (Nat.lt_succ_of_le hle)
  exact beq_eq_false_iff_ne.2 hne

/-- The magnitude of an integer up to `2 ^ 53` is kept. -/
theorem units_code_ofInt (hx : x.natAbs ≤ 2 ^ 53) :
    units (ofInt x).code = x.natAbs * one := by
  obtain ⟨code, hcode, hunits⟩ := exists_units_of_le hx
  have hround : (ofInt x).code = code := by
    have hself := roundCode_units hcode Nat.one_pos
    rw [Nat.mul_one, hunits] at hself
    exact hself
  rw [hround, hunits]

/-- The place of an integer among the doubles is as far from that of zero as its code says. -/
theorem rank_ofInt (n : Int) :
    (ofInt n).rank = if n < 0 then -((ofInt n).code : Int) else (ofInt n).code := by
  unfold rank
  by_cases hn : n < 0
  · have hsign : (ofInt n).negative = true := decide_eq_true hn
    rw [hsign, if_pos rfl, if_pos hn]
  · have hsign : (ofInt n).negative = false := decide_eq_false hn
    rw [hsign, if_neg Bool.false_ne_true, if_neg hn]

/-- Integers up to `2 ^ 53` do not share their places among the doubles. -/
theorem eq_of_rank_ofInt (hx : x.natAbs ≤ 2 ^ 53) (hy : y.natAbs ≤ 2 ^ 53)
    (h : (ofInt x).rank = (ofInt y).rank) : x = y := by
  have hunits := units_code_ofInt hx
  have hranks : (ofInt x).code = (ofInt y).code ∧
      ((x < 0 ↔ y < 0) ∨ (ofInt x).code = 0) := by
    rw [rank_ofInt, rank_ofInt] at h
    split at h <;> split at h <;> omega
  have habs : x.natAbs = y.natAbs := by
    refine Nat.eq_of_mul_eq_mul_right Decimal.one_pos ?_
    rw [← hunits, hranks.1, units_code_ofInt hy]
  rcases hranks.2 with hsigns | hzero
  · omega
  · -- Only zero has the code zero, and zero has no sign.
    have hzeros : x.natAbs = 0 := by
      rw [hzero, units_zero] at hunits
      exact (Nat.mul_eq_zero.1 hunits.symm).resolve_right Decimal.one_pos.ne'
    have hxzero : x = 0 := Int.natAbs_eq_zero.1 hzeros
    have hyzero : y = 0 := Int.natAbs_eq_zero.1 (habs.symm.trans hzeros)
    rw [hxzero, hyzero]

end Double

end CelShell
