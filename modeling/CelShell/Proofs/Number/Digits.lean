import Mathlib.Algebra.Group.Nat.Defs
import CelShell.Number.Digits

/-!
# Numerals

Writing a number in base ten and reading the numeral gives the number back, zeros before a numeral
count for nothing, and each zero after it counts as a factor of ten. A numeral in a longer text ends
at the first character that is no digit.
-/

namespace CelShell

namespace Text

variable {p : Char → Bool} {s rest : List Char}

/-- A text that does not start with a character of a class. -/
def Stops (p : Char → Bool) (s : List Char) : Prop := ∀ c rest, s = c :: rest → p c = false

/-- No text starts with nothing. -/
theorem stops_nil : Stops p [] := by
  intro c rest h
  cases h

/-- The first character of a text decides what it starts with. -/
theorem stops_cons {c : Char} : Stops p (c :: rest) ↔ p c = false := by
  constructor
  · intro h
    exact h c rest rfl
  · rintro h c' rest' ⟨⟩
    exact h

/-- Characters of a class are taken up to where they stop. -/
theorem takeWhile_append_of_stops (hs : ∀ c ∈ s, p c = true) (hrest : Stops p rest) :
    (s ++ rest).takeWhile p = s := by
  rw [List.takeWhile_append_of_pos hs]
  cases rest with
  | nil => rw [List.takeWhile_nil, List.append_nil]
  | cons c rest =>
    rw [List.takeWhile_cons_of_neg (by rw [stops_cons.1 hrest]; decide), List.append_nil]

/-- What follows the characters of a class is left where they stop. -/
theorem dropWhile_append_of_stops (hs : ∀ c ∈ s, p c = true) (hrest : Stops p rest) :
    (s ++ rest).dropWhile p = rest := by
  rw [List.dropWhile_append_of_pos hs]
  cases rest with
  | nil => rw [List.dropWhile_nil]
  | cons c rest => rw [List.dropWhile_cons_of_neg (by rw [stops_cons.1 hrest]; decide)]

end Text

namespace Number

variable {c : Char} {s : List Char}

/-- The digits are those of the core library. -/
theorem isDigit_eq (c : Char) : isDigit c = c.isDigit := rfl

/-- A text of digits. -/
def IsNumeral (s : List Char) : Prop := ∀ c ∈ s, isDigit c = true

/-- Digits before digits are digits. -/
theorem isNumeral_cons : IsNumeral (c :: s) ↔ isDigit c = true ∧ IsNumeral s := List.forall_mem_cons

/-- Digits after digits are digits. -/
theorem isNumeral_append {t : List Char} : IsNumeral (s ++ t) ↔ IsNumeral s ∧ IsNumeral t :=
  List.forall_mem_append

/-- A number is written with digits. -/
theorem isNumeral_toDigits (n : Nat) : IsNumeral (toDigits n) := by
  intro c h
  rw [isDigit_eq]
  exact Nat.isDigit_of_mem_toDigits (by decide) (by decide) h

/-- Zeros are digits. -/
theorem isNumeral_zeros (k : Nat) : IsNumeral (List.replicate k '0') := by
  intro c h
  rw [List.eq_of_mem_replicate h]
  rfl

/-- Every number has a digit. -/
theorem toDigits_ne_nil (n : Nat) : toDigits n ≠ [] := Nat.toDigits_ne_nil

/-- The value of a digit is counted from zero. -/
theorem digitValue_of_isDigit (h : isDigit c = true) : digitValue c = c.toNat - '0'.toNat := by
  unfold isDigit at h
  rw [Bool.and_eq_true, decide_eq_true_eq, decide_eq_true_eq] at h
  unfold digitValue
  rw [if_pos h.2]

/-- A numeral in base ten is read as the core library reads it. -/
theorem ofDigits_eq (h : IsNumeral s) : ofDigits 10 s = Nat.ofDigitChars 10 s 0 := by
  have hfold : ∀ n, s.foldl (fun n c => 10 * n + digitValue c) n = Nat.ofDigitChars 10 s n := by
    induction s with
    | nil => exact fun n => Nat.ofDigitChars_nil.symm
    | cons c s ih =>
      intro n
      rw [List.foldl_cons, Nat.ofDigitChars_cons, digitValue_of_isDigit (h c List.mem_cons_self)]
      exact ih (isNumeral_cons.1 h).2 _
  exact hfold 0

/-- Reading gives back the number that was written. -/
theorem ofDigits_toDigits (n : Nat) : ofDigits 10 (toDigits n) = n := by
  rw [ofDigits_eq (isNumeral_toDigits n)]
  exact Nat.ofDigitChars_ten_toDigits

/-- A zero after a numeral is a factor of ten. -/
theorem ofDigits_append_zeros (h : IsNumeral s) (k : Nat) :
    ofDigits 10 (s ++ List.replicate k '0') = ofDigits 10 s * 10 ^ k := by
  rw [ofDigits_eq h, ofDigits_eq (isNumeral_append.2 ⟨h, isNumeral_zeros k⟩),
    Nat.ofDigitChars_append, Nat.ofDigitChars_replicate_zero, Nat.mul_comm]

/-- A zero before a numeral is nothing. -/
theorem ofDigits_zeros_append (h : IsNumeral s) (k : Nat) :
    ofDigits 10 (List.replicate k '0' ++ s) = ofDigits 10 s := by
  rw [ofDigits_eq h, ofDigits_eq (isNumeral_append.2 ⟨isNumeral_zeros k, h⟩),
    Nat.ofDigitChars_append, Nat.ofDigitChars_replicate_zero, Nat.mul_zero]

/-- A number is below the power of ten that its digits count. -/
theorem lt_pow_length_toDigits (n : Nat) : n < 10 ^ (toDigits n).length :=
  (Nat.length_toDigits_le_iff (by decide) (List.length_pos_iff.2 (toDigits_ne_nil n))).1
    (Nat.le_refl _)

end Number

end CelShell
