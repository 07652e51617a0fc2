import CelShell.Format.Json
import CelShell.Proofs.Token.Number

/-!
# The texts of numbers

A number is written with digits, a point, an exponent and signs, whatever its format. Only infinity
and NaN are written with other letters. In JSON the text of an integer or of a finite double tells
which number it is (`Json.integerText_injective`, `Double.eq_of_text_json`), and a double always has
a point or an exponent, which an integer has not.
-/

namespace CelShell

open Number

namespace Number

variable {s : List Char}

/-- Whether a character stands in the text of a number. -/
def isNumberChar (c : Char) : Bool := isDigit c || ['.', 'e', '-', '+'].contains c

/-- The characters of a numeral stand in numbers. -/
theorem IsNumeral.isNumberChar (h : IsNumeral s) : ∀ c ∈ s, isNumberChar c = true :=
  fun c hc => Bool.or_eq_true_iff.2 (.inl (h c hc))

/-- The first digits of a numeral are a numeral. -/
theorem IsNumeral.take (h : IsNumeral s) (n : Nat) : IsNumeral (s.take n) :=
  fun c hc => h c (List.mem_of_mem_take hc)

/-- The last digits of a numeral are a numeral. -/
theorem IsNumeral.drop (h : IsNumeral s) (n : Nat) : IsNumeral (s.drop n) :=
  fun c hc => h c (List.mem_of_mem_drop hc)

end Number

/-- Digits are laid out with characters of numbers. -/
theorem DoubleFormat.isNumberChar_layOut {format : DoubleFormat} {digits : List Char}
    (hplus : ∀ c ∈ format.plus.toList, isNumberChar c = true) (hdigits : IsNumeral digits)
    (weight : Int) : ∀ c ∈ format.layOut digits weight, isNumberChar c = true := by
  have hpoint : ∀ c ∈ ['.', '0'], isNumberChar c = true :=
    List.forall_mem_cons.2 ⟨rfl, List.forall_mem_singleton.2 rfl⟩
  unfold layOut
  dsimp only
  by_cases hpositional : format.positional weight = true
  · rw [if_pos hpositional]
    -- Written out, the point stands before the digits, behind them or among them.
    by_cases hbelow : weight < 0
    · rw [if_pos hbelow]
      have hzeros := isNumeral_append.2 ⟨isNumeral_zeros (-weight - 1).toNat, hdigits⟩
      exact List.forall_mem_cons.2 ⟨rfl, List.forall_mem_cons.2 ⟨rfl, hzeros.isNumberChar⟩⟩
    · rw [if_neg hbelow]
      by_cases hwhole : digits.length ≤ weight.toNat + 1
      · rw [if_pos hwhole, List.forall_mem_append]
        refine ⟨(isNumeral_append.2 ⟨hdigits, isNumeral_zeros _⟩).isNumberChar, ?_⟩
        split
        · exact hpoint
        · exact List.forall_mem_nil _
      · rw [if_neg hwhole, List.forall_mem_append]
        exact ⟨(hdigits.take _).isNumberChar,
          List.forall_mem_cons.2 ⟨rfl, (hdigits.drop _).isNumberChar⟩⟩
  · -- With an exponent, the point stands behind the first digit.
    rw [if_neg hpositional, List.forall_mem_append]
    refine ⟨?_, List.forall_mem_cons.2 ⟨rfl, ?_⟩⟩
    · split
      · exact hdigits.isNumberChar
      · exact List.forall_mem_append.2 ⟨(hdigits.take _).isNumberChar,
          List.forall_mem_cons.2 ⟨rfl, (hdigits.drop _).isNumberChar⟩⟩
    · split
      · exact List.forall_mem_cons.2 ⟨rfl, (isNumeral_toDigits _).isNumberChar⟩
      · exact List.forall_mem_append.2 ⟨hplus, (isNumeral_toDigits _).isNumberChar⟩

namespace Double

/-- The text of a finite double is its sign and its digits as they are laid out. -/
theorem toList_text {x : Double} (format : DoubleFormat) (hfinite : x.isFinite = true) :
    (x.text format).toList =
      (if x.negative then ['-'] else []) ++
        format.layOut (x.digits format.halfUp).1 (x.digits format.halfUp).2 := by
  unfold text
  rw [isNaN_of_isFinite hfinite, isInfinite_of_isFinite hfinite]
  cases x.negative <;> simp

/-- A finite double is written with characters of numbers. -/
theorem isNumberChar_text {format : DoubleFormat} {x : Double}
    (hplus : ∀ c ∈ format.plus.toList, isNumberChar c = true) (hfinite : x.isFinite = true) :
    ∀ c ∈ (x.text format).toList, isNumberChar c = true := by
  rw [toList_text format hfinite, List.forall_mem_append]
  refine ⟨?_, DoubleFormat.isNumberChar_layOut hplus (isDigits_digits _ hfinite).numeral _⟩
  split
  · exact List.forall_mem_singleton.2 rfl
  · exact List.forall_mem_nil _

/-- A double that is not written with characters of numbers is written with letters. -/
theorem text_of_not_isFinite (format : DoubleFormat) {x : Double} (h : x.isFinite ≠ true) :
    x.text format = "NaN" ∨ x.text format = "inf" ∨ x.text format = "-inf" := by
  have hle : x.code ≤ Binary64.infinityCode + 1 := x.code_le
  have hge : Binary64.infinityCode ≤ x.code := by simpa [isFinite] using h
  unfold text
  by_cases hnan : x.isNaN = true
  · exact .inl (if_pos hnan)
  · -- Beyond the finite codes there are two, and the greater of them is that of NaN.
    have hinfinite : x.isInfinite = true := by
      simp only [isNaN, isInfinite, Binary64.nanCode, beq_iff_eq] at hnan ⊢
      omega
    rw [if_neg hnan, hinfinite]
    cases x.negative
    · exact .inr (.inl rfl)
    · exact .inr (.inr rfl)

end Double

/-! ## Numbers in JSON -/

open Decimal Scan

/-- A written sign and what it stands before are both known if that starts with no sign itself. -/
theorem sign_append_inj {p q : Prop} [Decidable p] [Decidable q] {s t : List Char}
    (hs : ∀ r, s ≠ '-' :: r) (ht : ∀ r, t ≠ '-' :: r)
    (h : (if p then ['-'] else []) ++ s = (if q then ['-'] else []) ++ t) : (p ↔ q) ∧ s = t := by
  by_cases hp : p <;> by_cases hq : q
  · rw [if_pos hp, if_pos hq] at h
    exact ⟨iff_of_true hp hq, List.append_cancel_left h⟩
  · rw [if_pos hp, if_neg hq] at h
    exact absurd h.symm (ht s)
  · rw [if_neg hp, if_pos hq] at h
    exact absurd h (hs t)
  · rw [if_neg hp, if_neg hq] at h
    exact ⟨iff_of_false hp hq, h⟩

namespace DoubleFormat

variable {code : Nat} {digits : List Char} {weight : Int}

/-- Digits that are laid out as JSON read back as their code, whether the sign of a positive
exponent is written or not. -/
theorem exists_read?_layOut_json (h : Double.IsDigits code digits weight) :
    ∃ d, Decimal.read? (json.layOut digits weight) = some d ∧ d.toCode = code := by
  obtain ⟨whole, fraction, power, htext, hnumber⟩ :=
    Double.exists_isNumberText ⟨json.positional, true, "", json.halfUp⟩ rfl rfl h
  by_cases hplain : json.positional weight = true ∨ weight < 0
  · -- Such a number has no sign that the source format would not write.
    have hsame : json.layOut digits weight =
        (⟨json.positional, true, "", json.halfUp⟩ : DoubleFormat).layOut digits weight := by
      unfold layOut
      rcases hplain with hpositional | hbelow
      · rw [if_pos hpositional, if_pos hpositional]
        rfl
      · simp only [if_pos hbelow]
    rw [hsame, htext,
      read?_numberText hnumber.numeral hnumber.numeral_fraction hnumber.ne_nil]
    exact ⟨_, rfl, hnumber.toCode⟩
  · obtain ⟨hpositional, hbelow⟩ := not_or.1 hplain
    have hnumber := h.isNumberText_power
    have hexponent : readExponent? ('+' :: toDigits weight.toNat) = some weight := by
      have hweight : (weight.toNat : Int) = weight := by omega
      simp [readExponent?, natural?_toDigits, hweight]
    have htext : json.layOut digits weight =
        digits.take 1 ++ (pointText (digits.drop 1) ++ 'e' :: '+' :: toDigits weight.toNat) := by
      unfold layOut
      rw [if_neg hpositional, if_neg hbelow]
      cases digits with
      | nil => exact absurd rfl h.ne_nil
      | cons c rest => cases rest <;> simp [pointText, json]
    rw [htext, read?_of_exponent hnumber.numeral hnumber.numeral_fraction hnumber.ne_nil hexponent]
    exact ⟨_, rfl, hnumber.toCode⟩

/-- A double in JSON has a point or an exponent. -/
theorem exists_mark_mem_layOut_json (digits : List Char) (weight : Int) :
    ∃ c ∈ json.layOut digits weight, c = '.' ∨ c = 'e' := by
  unfold layOut
  split
  · split
    · exact ⟨'.', by simp, .inl rfl⟩
    · dsimp only
      split
      · exact ⟨'.', by simp [json], .inl rfl⟩
      · exact ⟨'.', by simp, .inl rfl⟩
  · exact ⟨'e', by simp, .inr rfl⟩

end DoubleFormat

/-- Two finite doubles with the same text in JSON are the same double. -/
theorem Double.eq_of_text_json {x y : Double} (hx : x.isFinite = true) (hy : y.isFinite = true)
    (h : x.text .json = y.text .json) : x = y := by
  obtain ⟨d, hd, hxcode⟩ := DoubleFormat.exists_read?_layOut_json
    (isDigits_digits DoubleFormat.json.halfUp hx)
  obtain ⟨d', hd', hycode⟩ := DoubleFormat.exists_read?_layOut_json
    (isDigits_digits DoubleFormat.json.halfUp hy)
  -- No digits begin with a minus sign, so the text tells the sign.
  have hminus (s : List Char) : Decimal.read? ('-' :: s) = none := by
    simp [Decimal.read?, show isDigit '-' = false by decide]
  have htext := congrArg String.toList h
  rw [toList_text _ hx, toList_text _ hy] at htext
  obtain ⟨hsign, hlayout⟩ := sign_append_inj
    (fun s hs => by rw [hs, hminus] at hd; cases hd)
    (fun s hs => by rw [hs, hminus] at hd'; cases hd') htext
  -- Both texts are read as the same decimal, which gives one code.
  rw [hlayout] at hd
  obtain rfl : d = d' := Option.some.inj (hd.symm.trans hd')
  obtain ⟨negative, code, hcode⟩ := x
  obtain ⟨negative', code', hcode'⟩ := y
  obtain rfl : code = code' := hxcode.symm.trans hycode
  obtain rfl : negative = negative' := Bool.eq_iff_iff.2 hsign
  rfl

namespace Json

/-- The text of an integer is its sign and its digits. -/
theorem toList_integerText (n : Int) :
    (integerText n).toList = (if n < 0 then ['-'] else []) ++ toDigits n.natAbs := by
  unfold integerText
  split <;> simp

/-- An integer is written with characters of numbers. -/
theorem isNumberChar_integerText (n : Int) :
    ∀ c ∈ (integerText n).toList, isNumberChar c = true := by
  rw [toList_integerText, List.forall_mem_append]
  refine ⟨?_, (isNumeral_toDigits _).isNumberChar⟩
  split
  · exact List.forall_mem_singleton.2 rfl
  · exact List.forall_mem_nil _

/-- Digits do not start with a sign. -/
theorem toDigits_ne_minus (n : Nat) (s : List Char) : toDigits n ≠ '-' :: s := by
  obtain ⟨c, t, hc, hdigit⟩ := exists_toDigits n
  rw [hc]
  rintro h
  rw [(List.cons.inj h).1] at hdigit
  exact absurd hdigit (by decide)

/-- Two integers with the same text are the same integer. -/
theorem integerText_injective {n m : Int} (h : integerText n = integerText m) : n = m := by
  have htext := congrArg String.toList h
  rw [toList_integerText, toList_integerText] at htext
  obtain ⟨hsign, hdigits⟩ := sign_append_inj (toDigits_ne_minus _) (toDigits_ne_minus _) htext
  have habs : n.natAbs = m.natAbs := by
    rw [← ofDigits_toDigits n.natAbs, hdigits, ofDigits_toDigits]
  omega

/-- An integer is not written as a double is. -/
theorem integerText_ne_text {n : Int} {x : Double} (hx : x.isFinite = true) :
    integerText n ≠ x.text .json := by
  intro h
  obtain ⟨c, hc, hmark⟩ := DoubleFormat.exists_mark_mem_layOut_json
    (x.digits DoubleFormat.json.halfUp).1 (x.digits DoubleFormat.json.halfUp).2
  have hmem : c ∈ (integerText n).toList := by
    rw [h, Double.toList_text _ hx]
    exact List.mem_append_right _ hc
  -- An integer has digits and a minus sign, and neither a point nor an exponent.
  have hplain : c = '-' ∨ isDigit c = true := by
    rw [toList_integerText] at hmem
    rcases List.mem_append.1 hmem with hsign | hdigit
    · split at hsign
      · exact .inl (List.mem_singleton.1 hsign)
      · cases hsign
    · exact .inr (isNumeral_toDigits _ c hdigit)
  rcases hmark with rfl | rfl <;> exact absurd hplain (by decide)

end Json

end CelShell
