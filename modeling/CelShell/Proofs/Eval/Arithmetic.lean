import CelShell.Proofs.Eval.Builtin
import CelShell.Proofs.Eval.Selection
import CelShell.Proofs.Number.Word
import CelShell.Proofs.Typing.Progress

/-!
# Arithmetic on integers

A value of an integer type is worth an integer, and arithmetic on two values of one type either
gives the value that is worth the exact result or is refused (`BinaryOp.arithmetic_eq`): for a
divisor of zero, and else because the result does not fit the type. The remainder is refused with
its quotient, so the two succeed together, and then quotient, divisor and remainder make up the
dividend again without leaving the type (`Expr.integer_arithmetic`).
-/

namespace CelShell

open Number

variable {unsigned : Bool} {n x y : Int} {a b v : Value}

namespace Value

/-- A value of an integer type and the integer that it is worth. -/
inductive IsInteger : Bool → Int → Value → Prop
  | int (w : Int64) : IsInteger false w.toInt (int w)
  | uint (w : UInt64) : IsInteger true w.toNat (uint w)

/-- A signed value is the integer of its word. -/
theorem isInteger_int {w : Int64} : IsInteger false n (int w) ↔ w.toInt = n := by
  constructor
  · intro h
    cases h
    rfl
  · rintro rfl
    exact .int w

/-- An unsigned value is the natural number of its word. -/
theorem isInteger_uint {w : UInt64} : IsInteger true n (uint w) ↔ (w.toNat : Int) = n := by
  constructor
  · intro h
    cases h
    rfl
  · rintro rfl
    exact .uint w

/-- A value is worth an integer of its type. -/
theorem IsInteger.fits (h : IsInteger unsigned n v) : Fits unsigned n := by
  cases h with
  | int w => exact fits_toInt w
  | uint w => exact fits_toNat w

/-- No two values of a type are worth the same integer. -/
theorem IsInteger.unique {w : Value} (h : IsInteger unsigned n v) (h' : IsInteger unsigned n w) :
    v = w := by
  cases h with
  | int i =>
    generalize hn : i.toInt = n at h'
    obtain ⟨j⟩ := h'
    rw [Int64.toInt_inj.mp hn]
  | uint i =>
    generalize hn : (i.toNat : Int) = n at h'
    obtain ⟨_, j⟩ := h'
    rw [UInt64.toNat_inj.mp (Int.ofNat_inj.mp hn)]

/-- An integer as a value of a type, if it fits. -/
def ofInteger (unsigned : Bool) (n : Int) : Except EvalError Value :=
  if unsigned then ofUint n else ofInt n

/-- The signed value of an integer. -/
theorem ofInteger_signed : ofInteger false n = ofInt n := rfl

/-- The unsigned value of an integer. -/
theorem ofInteger_unsigned : ofInteger true n = ofUint n := rfl

/-- An integer that fits a type has a value that is worth it. -/
theorem ofInteger_of_fits (h : Fits unsigned n) :
    ∃ v, ofInteger unsigned n = .ok v ∧ IsInteger unsigned n v := by
  cases unsigned with
  | false =>
    obtain ⟨w, hw, hworth⟩ := exists_int64? h
    refine ⟨int w, ?_, isInteger_int.mpr hworth⟩
    rw [ofInteger_signed, ofInt, hw]
  | true =>
    obtain ⟨w, hw, hworth⟩ := exists_uint64? h
    refine ⟨uint w, ?_, isInteger_uint.mpr hworth⟩
    rw [ofInteger_unsigned, ofUint, hw]

/-- Every integer that fits the type is one of its values. -/
theorem exists_isInteger (h : Fits unsigned n) : ∃ v, IsInteger unsigned n v := by
  obtain ⟨v, -, hv⟩ := ofInteger_of_fits h
  exact ⟨v, hv⟩

/-- An integer that does not fit a type is an overflow of it. -/
theorem ofInteger_of_not_fits (h : ¬ Fits unsigned n) :
    ofInteger unsigned n = .error (.overflow unsigned) := by
  cases unsigned with
  | false =>
    rw [ofInteger_signed, ofInt, int64?_eq_none_iff.mpr h]
  | true =>
    rw [ofInteger_unsigned, ofUint, uint64?_eq_none_iff.mpr h]

/-- The value of an integer is the one that is worth it. -/
theorem ofInteger_eq_ok_iff : ofInteger unsigned n = .ok v ↔ IsInteger unsigned n v := by
  by_cases hfits : Fits unsigned n
  · obtain ⟨w, hw, hworth⟩ := ofInteger_of_fits hfits
    rw [hw, Except.ok.injEq]
    constructor
    · rintro rfl
      exact hworth
    · exact fun h => hworth.unique h
  · rw [ofInteger_of_not_fits hfits]
    exact iff_of_false nofun fun h => hfits h.fits

end Value

namespace BinaryOp

open Value

/-- The operators of arithmetic. -/
def arithmetics : List BinaryOp := [add, subtract, multiply, divide, modulo]

variable {op : BinaryOp}

/-- The only quotient of two values of a type that does not fit the type is one of signed words. -/
theorem fits_quotient_iff (ha : IsInteger unsigned x a) (hb : IsInteger unsigned y b)
    (hy : y ≠ 0) : Fits unsigned (x.tdiv y) ↔ ¬ (x = -2 ^ 63 ∧ y = -1) := by
  cases ha with
  | int i => exact fits_tdiv_iff (fits_toInt i) hy
  | uint i =>
    cases hb with
    | uint j =>
      have hle : i.toNat / j.toNat ≤ i.toNat := Nat.div_le_self _ _
      have hlt := i.toNat_lt
      rw [← Int.ofNat_tdiv, fits_unsigned]
      generalize i.toNat / j.toNat = quotient at hle ⊢
      omega

/-- The product of quotient and divisor lies between zero and the dividend. -/
theorem fits_tdiv_mul (ha : IsInteger unsigned x a) (y : Int) :
    Fits unsigned (x.tdiv y * y) := by
  have hbetween := tdiv_mul_between x y
  have hx := ha.fits
  cases unsigned <;> simp only [fits_signed, fits_unsigned] at hx ⊢ <;> omega

/-- A remainder of two values of a type fits the type. -/
theorem fits_remainder (ha : IsInteger unsigned x a) (hb : IsInteger unsigned y b) (hy : y ≠ 0) :
    Fits unsigned (x.tmod y) := by
  have hlt := natAbs_tmod_lt x hy
  have hsign := tmod_sign x y
  have hx := ha.fits
  have hy := hb.fits
  cases unsigned <;> simp only [fits_signed, fits_unsigned] at hx hy ⊢ <;> omega

/-- Zero is refused as a divisor. -/
theorem arithmetic_zero (ha : IsInteger unsigned x a) (hb : IsInteger unsigned 0 b) :
    divide.arithmetic a b = .error .divisionByZero ∧
      modulo.arithmetic a b = .error .modulusByZero := by
  generalize hy : (0 : Int) = y at hb
  cases ha with
  | int i =>
    cases hb with
    | int j => simp [arithmetic, ← hy]
  | uint i =>
    cases hb with
    | uint j => simp [arithmetic, Int.ofNat_eq_zero.mp hy.symm]

/-- A result other than a remainder is the exact one if that fits. -/
theorem arithmetic_eq (ha : IsInteger unsigned x a) (hb : IsInteger unsigned y b)
    (hop : op ≠ modulo) (hy : op = divide → y ≠ 0) :
    op.arithmetic a b = ofInteger unsigned (op.onIntegers x y) := by
  cases ha with
  | int i =>
    cases hb with
    | int j =>
      -- The divisor is tested first, and only where there is one.
      have hzero : ¬ (j.toInt = 0 ∧ op = divide) := fun h => hy h.2 h.1
      rw [arithmetic, if_neg hzero, if_neg fun h => hop h.2, if_neg hop]
      rfl
  | uint i =>
    cases hb with
    | uint j =>
      have hzero : ¬ (j.toNat = 0 ∧ op = divide) := fun h => hy h.2 (Int.ofNat_eq_zero.mpr h.1)
      rw [arithmetic, if_neg hzero, if_neg fun h => hop h.2]
      rfl

/-- Apart from the remainder and from division by zero, an operator gives the value of the integer
that it says, and no other. -/
theorem arithmetic_eq_ok_iff (ha : IsInteger unsigned x a) (hb : IsInteger unsigned y b)
    (hop : op ≠ modulo) (hy : op = divide → y ≠ 0) :
    op.arithmetic a b = .ok v ↔ IsInteger unsigned (op.onIntegers x y) v := by
  rw [arithmetic_eq ha hb hop hy, ofInteger_eq_ok_iff]

/-- A remainder is refused with its quotient, and is else the exact one. -/
theorem arithmetic_modulo (ha : IsInteger unsigned x a) (hb : IsInteger unsigned y b)
    (hy : y ≠ 0) :
    modulo.arithmetic a b =
      if x = -2 ^ 63 ∧ y = -1 then .error (.overflow unsigned)
      else ofInteger unsigned (x.tmod y) := by
  have hquotient := fits_quotient_iff ha hb hy
  cases ha with
  | int i =>
    cases hb with
    | int j =>
      rw [arithmetic, if_neg fun h => hy h.1, if_neg fun h => hy h.1, if_pos rfl]
      -- The quotient is worked out and dropped, so the one pair without a quotient is refused here
      -- too.
      by_cases hleast : i.toInt = -2 ^ 63 ∧ j.toInt = -1
      · have hrefused := ofInteger_of_not_fits fun h => hquotient.mp h hleast
        rw [if_pos hleast]
        show discard (ofInteger false (i.toInt.tdiv j.toInt)) >>= _ = _
        rw [hrefused]
        rfl
      · obtain ⟨v, hv, -⟩ := ofInteger_of_fits (hquotient.mpr hleast)
        rw [if_neg hleast]
        show discard (ofInteger false (i.toInt.tdiv j.toInt)) >>= _ = _
        rw [hv]
        exact ofInteger_signed.symm
  | uint i =>
    cases hb with
    | uint j =>
      have hzero : j.toNat ≠ 0 := fun h => hy (Int.ofNat_eq_zero.mpr h)
      -- Unsigned numbers are never that pair.
      have hsign : ¬ ((i.toNat : Int) = -2 ^ 63 ∧ (j.toNat : Int) = -1) := by omega
      have hresult : modulo.onIntegers i.toNat j.toNat = (i.toNat : Int).tmod j.toNat := rfl
      rw [if_neg hsign, arithmetic, if_neg fun h => hzero h.1, if_neg fun h => hzero h.1, hresult]
      exact ofInteger_unsigned.symm

/-- What the arithmetic of an integer type has to answer for two of its numbers. -/
structure IsExact (unsigned : Bool) (x y : Int) (result : BinaryOp → Except EvalError Value) :
    Prop where
  add : ∀ v, result add = .ok v ↔ v.IsInteger unsigned (x + y)
  subtract : ∀ v, result subtract = .ok v ↔ v.IsInteger unsigned (x - y)
  multiply : ∀ v, result multiply = .ok v ↔ v.IsInteger unsigned (x * y)
  /-- The quotient is truncated toward zero. -/
  divide : ∀ v, result divide = .ok v ↔ y ≠ 0 ∧ v.IsInteger unsigned (x.tdiv y)
  /-- The remainder has the sign of the dividend. That of the least int by minus one would fit, and
  is refused with its quotient. -/
  modulo : ∀ v, result modulo = .ok v ↔
    y ≠ 0 ∧ ¬ (x = -2 ^ 63 ∧ y = -1) ∧ v.IsInteger unsigned (x.tmod y)
  zero : y = 0 → result .divide = .error .divisionByZero ∧ result .modulo = .error .modulusByZero
  /-- Whatever else is refused overflows. -/
  overflow : ∀ op ∈ arithmetics, ∀ error, result op = .error error →
    error = .overflow unsigned ∨ y = 0 ∧ op ∈ [.divide, .modulo]

/-- Only what the operators of arithmetic answer counts. -/
theorem IsExact.congr {result result' : BinaryOp → Except EvalError Value}
    (h : IsExact unsigned x y result) (heq : ∀ op ∈ arithmetics, result' op = result op) :
    IsExact unsigned x y result' where
  add := by
    rw [heq .add (by decide)]
    exact h.add
  subtract := by
    rw [heq .subtract (by decide)]
    exact h.subtract
  multiply := by
    rw [heq .multiply (by decide)]
    exact h.multiply
  divide := by
    rw [heq .divide (by decide)]
    exact h.divide
  modulo := by
    rw [heq .modulo (by decide)]
    exact h.modulo
  zero := by
    rw [heq .divide (by decide), heq .modulo (by decide)]
    exact h.zero
  overflow op hop := by
    rw [heq op hop]
    exact h.overflow op hop

/-- The error of an integer that is a value of a type if it fits is an overflow of the type. -/
theorem eq_overflow {error : EvalError} (h : ofInteger unsigned n = .error error) :
    error = .overflow unsigned := by
  by_cases hfits : Fits unsigned n
  · obtain ⟨v, hv, -⟩ := ofInteger_of_fits hfits
    rw [hv] at h
    cases h
  · rw [ofInteger_of_not_fits hfits] at h
    exact (Except.error.inj h).symm

/-- Arithmetic is exact or refused. -/
theorem isExact_arithmetic (ha : IsInteger unsigned x a) (hb : IsInteger unsigned y b) :
    IsExact unsigned x y fun op => op.arithmetic a b where
  add _ := arithmetic_eq_ok_iff ha hb nofun nofun
  subtract _ := arithmetic_eq_ok_iff ha hb nofun nofun
  multiply _ := arithmetic_eq_ok_iff ha hb nofun nofun
  divide v := by
    by_cases hy : y = 0
    · subst hy
      rw [(arithmetic_zero ha hb).1]
      exact iff_of_false nofun fun h => h.1 rfl
    · rw [and_iff_right hy]
      exact arithmetic_eq_ok_iff ha hb nofun fun _ => hy
  modulo v := by
    by_cases hy : y = 0
    · subst hy
      rw [(arithmetic_zero ha hb).2]
      exact iff_of_false nofun fun h => h.1 rfl
    · rw [arithmetic_modulo ha hb hy, and_iff_right hy]
      by_cases hleast : x = -2 ^ 63 ∧ y = -1
      · rw [if_pos hleast]
        exact iff_of_false nofun fun h => h.1 hleast
      · rw [if_neg hleast, and_iff_right hleast]
        exact ofInteger_eq_ok_iff
  zero hy := by
    subst hy
    exact arithmetic_zero ha hb
  overflow op hop error h := by
    -- An error by zero comes from the two operators that divide; all others are overflows.
    by_cases hdivides : y = 0 ∧ op ∈ [BinaryOp.divide, .modulo]
    · exact Or.inr hdivides
    · refine Or.inl ?_
      by_cases hmodulo : op = .modulo
      · subst hmodulo
        have hy : y ≠ 0 := fun hy => hdivides ⟨hy, by decide⟩
        rw [arithmetic_modulo ha hb hy] at h
        split at h
        · exact (Except.error.inj h).symm
        · exact eq_overflow h
      · have hdivide : op = .divide → y ≠ 0 := by
          rintro rfl hy
          exact hdivides ⟨hy, by decide⟩
        rw [arithmetic_eq ha hb hmodulo hdivide] at h
        exact eq_overflow h

end BinaryOp

namespace Expr

open BinaryOp Value

variable {α : Type} {values scope : Table String Value} {e f : Expr α} {op : BinaryOp}

/-- Without functions of a host, arithmetic on operands that have integers for values is that of the
language. -/
theorem eval_arithmetic (hop : op ∈ arithmetics)
    (ha : IsInteger unsigned x a) (he : e.eval [] values scope = .ok a)
    (hf : f.eval [] values scope = .ok b) (mark : α) :
    (call mark op.function [e, f]).eval [] values scope = op.arithmetic a b := by
  have hlazy : ∀ op ∈ arithmetics, Operator.isLazy op.function = false := by decide
  have happly : op.apply a b = op.arithmetic a b := by
    simp only [arithmetics, List.mem_cons, List.not_mem_nil, or_false] at hop
    rcases hop with rfl | rfl | rfl | rfl | rfl
    · -- A sum is also one of texts or of lists.
      cases ha <;> rfl
    all_goals rfl
  have hcall : (Bindings.interface [] values).call op.function [a, b] =
      Evaluation.ended (op.apply a b) := by
    show Builtin.call op.function [a, b] = _
    rw [Builtin.call_binary]
    rfl
  unfold eval at he hf ⊢
  rw [evaluate, suspended, suspended, suspended, Evaluation.call_of_not_lazy (hlazy op hop)]
  unfold Evaluation.all Evaluation.all Evaluation.all
  simp only [Evaluation.run_bind_eq, he, hf, pure_bind, bind_assoc, hcall, happly]
  rfl

/-- Arithmetic on operands that have integers of one type for values is exact or refused. Division
and remainder succeed together, and then quotient, divisor and remainder make up the dividend, with
a remainder whose magnitude is below that of the divisor. -/
theorem integer_arithmetic (ha : IsInteger unsigned x a) (hb : IsInteger unsigned y b)
    (he : e.eval [] values scope = .ok a) (hf : f.eval [] values scope = .ok b)
    (m p q r : α) :
    let result := fun op : BinaryOp => (call m op.function [e, f]).eval [] values scope
    IsExact unsigned x y result ∧
      ((∃ v, result .divide = .ok v) ↔ ∃ v, result .modulo = .ok v) ∧
      ∀ v, result .modulo = .ok v →
        (call m BinaryOp.add.function
          [call p BinaryOp.multiply.function [call q BinaryOp.divide.function [e, f], f],
            call r BinaryOp.modulo.function [e, f]]).eval [] values scope = .ok a ∧
          ∃ z, v.IsInteger unsigned z ∧ z.natAbs < y.natAbs := by
  have heval : ∀ op ∈ arithmetics, ∀ mark : α,
      (call mark op.function [e, f]).eval [] values scope = op.arithmetic a b :=
    fun op hop mark => eval_arithmetic hop ha he hf mark
  have hexact := (isExact_arithmetic ha hb).congr fun op hop => heval op hop m
  refine ⟨hexact, ?_, ?_⟩
  · simp only [hexact.divide, hexact.modulo]
    constructor
    · rintro ⟨v, hy, hv⟩
      obtain ⟨w, hw⟩ := exists_isInteger (fits_remainder ha hb hy)
      exact ⟨w, hy, (fits_quotient_iff ha hb hy).mp hv.fits, hw⟩
    · rintro ⟨v, hy, hleast, hv⟩
      obtain ⟨w, hw⟩ := exists_isInteger ((fits_quotient_iff ha hb hy).mpr hleast)
      exact ⟨w, hy, hw⟩
  · intro v hv
    obtain ⟨hy, hleast, hremainder⟩ := (hexact.modulo v).mp hv
    refine ⟨?_, x.tmod y, hremainder, natAbs_tmod_lt x hy⟩
    -- Neither the product nor the sum leaves the type, since both lie between zero and the
    -- dividend.
    obtain ⟨quotient, hquotient⟩ := exists_isInteger ((fits_quotient_iff ha hb hy).mpr hleast)
    obtain ⟨product, hproduct⟩ := exists_isInteger (fits_tdiv_mul ha y)
    have hdivide :
        (call q BinaryOp.divide.function [e, f]).eval [] values scope = .ok quotient := by
      rw [heval .divide (by decide)]
      exact ((isExact_arithmetic ha hb).divide quotient).mpr ⟨hy, hquotient⟩
    have hmultiply : (call p BinaryOp.multiply.function
        [call q BinaryOp.divide.function [e, f], f]).eval [] values scope = .ok product := by
      rw [eval_arithmetic (by decide) hquotient hdivide hf]
      exact ((isExact_arithmetic hquotient hb).multiply product).mpr hproduct
    have hmodulo : (call r BinaryOp.modulo.function [e, f]).eval [] values scope = .ok v := by
      rw [heval .modulo (by decide), ← heval .modulo (by decide) m]
      exact hv
    have hsum : IsInteger unsigned (x.tdiv y * y + x.tmod y) a := by
      rw [Int.tdiv_mul_add_tmod]
      exact ha
    rw [eval_arithmetic (by decide) hproduct hmultiply hmodulo]
    exact ((isExact_arithmetic hproduct hremainder).add a).mpr hsum

/-- The least int divided by three is truncated, and its remainder is negative. By minus one it has
neither quotient nor remainder. -/
theorem integer_arithmetic_least :
    let values : Table String Value :=
      [("x", .int Int64.minValue), ("y", .int 3), ("z", .int (-1))]
    let x : Expr Unit := .ident () "x"
    let y : Expr Unit := .ident () "y"
    let z : Expr Unit := .ident () "z"
    (call () "_%_" [x, y]).eval [] values [] = .ok (.int (-2)) ∧
      (call () "_+_" [call () "_*_" [call () "_/_" [x, y], y], call () "_%_" [x, y]]).eval
        [] values [] = .ok (.int Int64.minValue) ∧
      (∀ v, (call () "_%_" [x, z]).eval [] values [] ≠ .ok v) := by
  intro values x y z
  have hx : x.eval [] values [] = .ok (.int Int64.minValue) := rfl
  have hy : y.eval [] values [] = .ok (.int 3) := rfl
  have hz : z.eval [] values [] = .ok (.int (-1)) := rfl
  -- The identity puts the int together again, and the least int has no quotient by minus one.
  obtain ⟨hexact, -, hdividend⟩ := integer_arithmetic (.int _) (.int _) hx hy () () () ()
  obtain ⟨hrefused, -, -⟩ := integer_arithmetic (.int _) (.int _) hx hz () () () ()
  have hremainder : (call () "_%_" [x, y]).eval [] values [] = .ok (.int (-2)) :=
    (hexact.modulo _).mpr ⟨by decide, by decide, isInteger_int.mpr (by decide)⟩
  refine ⟨hremainder, (hdividend _ hremainder).1, fun v hv => ?_⟩
  exact ((hrefused.modulo v).mp hv).2.1 (by decide)

end Expr

end CelShell
