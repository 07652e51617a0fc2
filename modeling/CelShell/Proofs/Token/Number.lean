import CelShell.Proofs.Number.Decimal
import CelShell.Token.Scan

/-!
# Numbers are read back

A number in source text has digits, perhaps a fraction and perhaps an exponent. The scanner takes
such a text as a whole, provided that what follows could not belong to it, and the decimal that it
finds there has the digits and the exponent that were written. Every layout of a double has this
shape, so a finite double is read back as itself, and an integer is read back from its digits.
-/

namespace CelShell

open Number

namespace Scan

/-- The digits after the point, with the point. -/
def pointText : List Char → List Char
  | [] => []
  | digits => '.' :: digits

/-- An exponent with its mark. -/
def powerText : Option Int → List Char
  | none => []
  | some e => 'e' :: (if e < 0 then '-' :: toDigits (-e).toNat else toDigits e.toNat)

/-- The text of a number, from its digits before and after the point and its exponent. -/
def numberText (whole fraction : List Char) (power : Option Int) : List Char :=
  whole ++ (pointText fraction ++ powerText power)

/-- What follows a number does not belong to it. -/
structure EndsNumber (rest : List Char) : Prop where
  digit : Text.Stops isDigit rest
  fraction : fraction rest = ([], rest)
  exponent : exponent rest = ([], rest)
  suffix : suffix rest = (false, rest)

variable {whole digits rest : List Char} {power : Option Int}

/-! ## The parts of a number -/

/-- Every number starts with a digit. -/
theorem exists_toDigits (n : Nat) : ∃ c s, toDigits n = c :: s ∧ isDigit c = true := by
  cases h : toDigits n with
  | nil => exact absurd h (toDigits_ne_nil n)
  | cons c s => exact ⟨c, s, rfl, (isNumeral_cons.1 (h ▸ isNumeral_toDigits n)).1⟩

/-- A fraction is read up to a character that is no digit. -/
theorem fraction_pointText (hdigits : IsNumeral digits) (hrest : Text.Stops isDigit rest)
    (hpoint : fraction rest = ([], rest)) :
    fraction (pointText digits ++ rest) = (pointText digits, rest) := by
  cases digits with
  | nil => exact hpoint
  | cons d digits =>
    obtain ⟨hd, hdigits⟩ := isNumeral_cons.1 hdigits
    change fraction ('.' :: d :: (digits ++ rest)) = ('.' :: d :: digits, rest)
    rw [fraction, if_pos hd, Text.takeWhile_append_of_stops hdigits hrest,
      Text.dropWhile_append_of_stops hdigits hrest]

/-- Digits after the mark of an exponent, or after its sign. -/
theorem exponent_digits (n : Nat) (hrest : Text.Stops isDigit rest) :
    exponent ('e' :: (toDigits n ++ rest)) = ('e' :: toDigits n, rest) ∧
      exponent ('e' :: '-' :: (toDigits n ++ rest)) = ('e' :: '-' :: toDigits n, rest) := by
  have htake := Text.takeWhile_append_of_stops (isNumeral_toDigits n) hrest
  have hdrop := Text.dropWhile_append_of_stops (isNumeral_toDigits n) hrest
  obtain ⟨c, s, hs, hc⟩ := exists_toDigits n
  rw [hs, List.cons_append] at htake hdrop ⊢
  rw [List.takeWhile_cons_of_pos hc] at htake
  rw [List.dropWhile_cons_of_pos hc] at hdrop
  -- A minus sign is no digit, so the sign is looked at second.
  have hminus : isDigit '-' = false := by decide
  constructor
  · simp only [exponent, decide_true, Bool.true_or, if_true, hc, hdrop, (List.cons.inj htake).2]
  · simp only [exponent, decide_true, Bool.true_or, Bool.or_true, if_true, hminus,
      Bool.false_eq_true, if_false, hc, List.takeWhile_cons_of_pos hc,
      List.dropWhile_cons_of_pos hc, htake, hdrop]

/-- An exponent is read up to a character that is no digit. -/
theorem exponent_powerText (hrest : Text.Stops isDigit rest)
    (hpower : exponent rest = ([], rest)) :
    exponent (powerText power ++ rest) = (powerText power, rest) := by
  cases power with
  | none => exact hpower
  | some e =>
    rw [powerText]
    by_cases he : e < 0
    · rw [if_pos he]
      exact (exponent_digits _ hrest).2
    · rw [if_neg he]
      exact (exponent_digits _ hrest).1

/-- An exponent starts with its mark, which is neither a digit nor a point. -/
theorem stops_powerText (power : Option Int) (hrest : EndsNumber rest) :
    Text.Stops isDigit (powerText power ++ rest) ∧
      fraction (powerText power ++ rest) = ([], powerText power ++ rest) := by
  cases power with
  | none => exact ⟨hrest.digit, hrest.fraction⟩
  | some e => exact ⟨Text.stops_cons.2 (by decide), rfl⟩

/-- What may follow the digits of a number is no digit. -/
theorem stops_pointText (digits : List Char) (power : Option Int) (hrest : EndsNumber rest) :
    Text.Stops isDigit (pointText digits ++ (powerText power ++ rest)) := by
  cases digits with
  | nil => exact (stops_powerText power hrest).1
  | cons d digits => exact Text.stops_cons.2 (by decide)

/-! ## Numbers as tokens -/

/-- Digits that neither a fraction nor an exponent follows are an integer, signed or unsigned by the
suffix. -/
theorem decimalNumber_of_integer {unsigned : Bool} {after : List Char} (hwhole : IsNumeral whole)
    (hdigit : Text.Stops isDigit rest) (hpoint : fraction rest = ([], rest))
    (hpower : exponent rest = ([], rest)) (hsuffix : suffix rest = (unsigned, after)) :
    decimalNumber (whole ++ rest) =
      (numberOr (if unsigned then whole ++ ['u'] else whole)
        (integer? unsigned (ofDigits 10 whole)), after) := by
  unfold decimalNumber
  dsimp only
  rw [Text.takeWhile_append_of_stops hwhole hdigit, Text.dropWhile_append_of_stops hwhole hdigit,
    hpoint]
  dsimp only
  rw [hpower]
  dsimp only
  rw [List.isEmpty_nil, Bool.and_self, if_pos rfl, hsuffix, List.append_nil, List.append_nil]

/-- Digits that a fraction or an exponent follows are a double, if their text denotes a finite
one. -/
theorem decimalNumber_of_double {point power afterPoint after : List Char}
    (hwhole : IsNumeral whole) (hdigit : Text.Stops isDigit rest)
    (hpoint : fraction rest = (point, afterPoint)) (hpower : exponent afterPoint = (power, after))
    (hpart : (point.isEmpty && power.isEmpty) = false) :
    decimalNumber (whole ++ rest) =
      (numberOr (whole ++ point ++ power) ((finite? (whole ++ point ++ power)).map .double),
        after) := by
  unfold decimalNumber
  dsimp only
  rw [Text.takeWhile_append_of_stops hwhole hdigit, Text.dropWhile_append_of_stops hwhole hdigit,
    hpoint]
  dsimp only
  rw [hpower, hpart, if_neg Bool.false_ne_true]

/-- A number with a point or an exponent is a double, if its text denotes a finite one. -/
theorem decimalNumber_numberText (hwhole : IsNumeral whole) (hdigits : IsNumeral digits)
    (hpart : digits ≠ [] ∨ power ≠ none) (hrest : EndsNumber rest) :
    decimalNumber (numberText whole digits power ++ rest) =
      (numberOr (numberText whole digits power)
        ((finite? (numberText whole digits power)).map .double), rest) := by
  have hpower := stops_powerText power hrest
  have hpoint := stops_pointText digits power hrest
  -- A text with neither point nor exponent would be read as an integer.
  have hempty : ((pointText digits).isEmpty && (powerText power).isEmpty) = false := by
    rcases hpart with h | h
    · cases digits with
      | nil => exact absurd rfl h
      | cons d digits => rfl
    · cases power with
      | none => exact absurd rfl h
      | some e => exact Bool.and_false _
  have hnumber := decimalNumber_of_double hwhole hpoint
    (fraction_pointText hdigits hpower.1 hpower.2) (exponent_powerText hrest.digit hrest.exponent)
    hempty
  rw [List.append_assoc whole] at hnumber
  rwa [numberText, List.append_assoc, List.append_assoc]

/-- Digits alone are an integer, signed or unsigned by the suffix. -/
theorem decimalNumber_toDigits (n : Nat) {unsigned : Bool} {after : List Char}
    (hdigit : Text.Stops isDigit rest) (hpoint : fraction rest = ([], rest))
    (hpower : exponent rest = ([], rest)) (hsuffix : suffix rest = (unsigned, after)) :
    ∃ shown, decimalNumber (toDigits n ++ rest) =
      (numberOr shown (integer? unsigned n), after) := by
  have hnumber := decimalNumber_of_integer (isNumeral_toDigits n) hdigit hpoint hpower hsuffix
  rw [ofDigits_toDigits] at hnumber
  exact ⟨_, hnumber⟩

end Scan

namespace Decimal

open Scan

variable {whole digits : List Char} {power : Option Int}

/-- The digits of a number are read as that number. -/
theorem natural?_toDigits (n : Nat) : natural? (toDigits n) = some n := by
  have hall : (toDigits n).all isDigit = true := List.all_eq_true.2 (isNumeral_toDigits n)
  rw [natural?, if_pos ⟨toDigits_ne_nil n, hall⟩, ofDigits_toDigits]

/-- A written exponent is read. -/
theorem readExponent?_digits (e : Int) :
    readExponent? (if e < 0 then '-' :: toDigits (-e).toNat else toDigits e.toNat) = some e := by
  by_cases he : e < 0
  · have hneg : -((-e).toNat : Int) = e := by omega
    rw [if_pos he]
    simp only [readExponent?, natural?_toDigits, Option.bind_eq_bind, Option.bind_some,
      Option.pure_def, Option.map_some, hneg]
  · have hpos : (e.toNat : Int) = e := by omega
    obtain ⟨c, s, hs, hc⟩ := exists_toDigits e.toNat
    -- Digits begin with no sign.
    have hsign : c ≠ '-' ∧ c ≠ '+' := by
      constructor <;> rintro rfl <;> exact absurd hc (by decide)
    have hread := natural?_toDigits e.toNat
    rw [hs] at hread
    rw [if_neg he, hs]
    unfold readExponent?
    split
    · rename_i heq
      exact absurd (List.cons.inj heq).1 hsign.1
    · rename_i heq
      exact absurd (List.cons.inj heq).1 hsign.2
    · rw [hread]
      simp [hpos]

/-- The decimal that a text with an exponent denotes has its digits, and the exponent less the
digits after the point. -/
theorem read?_of_exponent {e : Int} {exponent : List Char} (hwhole : IsNumeral whole)
    (hdigits : IsNumeral digits) (hne : whole ≠ []) (hexponent : readExponent? exponent = some e) :
    read? (whole ++ (pointText digits ++ 'e' :: exponent)) =
      some ⟨ofDigits 10 (whole ++ digits), e - digits.length⟩ := by
  have hmark : Text.Stops isDigit ('e' :: exponent) := Text.stops_cons.2 (by decide)
  unfold read?
  dsimp only
  cases digits with
  | nil =>
    rw [pointText, List.nil_append, Text.takeWhile_append_of_stops hwhole hmark,
      Text.dropWhile_append_of_stops hwhole hmark]
    simp [hne, hexponent]
  | cons d digits =>
    have hpoint : Text.Stops isDigit (pointText (d :: digits) ++ 'e' :: exponent) :=
      Text.stops_cons.2 (by decide)
    rw [Text.takeWhile_append_of_stops hwhole hpoint, Text.dropWhile_append_of_stops hwhole hpoint]
    -- Behind the point the digits end at the mark of the exponent.
    have htake := Text.takeWhile_append_of_stops hdigits hmark
    have hdrop := Text.dropWhile_append_of_stops hdigits hmark
    simp only [pointText, List.cons_append] at htake hdrop ⊢
    rw [htake, hdrop]
    simp [hexponent]

/-- The decimal that a text denotes has its digits, and the exponent less the digits after the
point. -/
theorem read?_numberText (hwhole : IsNumeral whole) (hdigits : IsNumeral digits)
    (hne : whole ≠ []) :
    read? (numberText whole digits power) =
      some ⟨ofDigits 10 (whole ++ digits), power.getD 0 - digits.length⟩ := by
  cases power with
  | some e => exact read?_of_exponent hwhole hdigits hne (readExponent?_digits e)
  | none =>
    -- Nothing follows, so the digits end with the text.
    have hends : EndsNumber [] := ⟨Text.stops_nil, rfl, rfl, rfl⟩
    have hpoint := stops_pointText digits none hends
    rw [List.append_nil] at hpoint
    unfold read? numberText
    dsimp only
    rw [Text.takeWhile_append_of_stops hwhole hpoint, Text.dropWhile_append_of_stops hwhole hpoint]
    cases digits with
    | nil => simp [pointText, powerText, hne]
    | cons d digits =>
      have htake := Text.takeWhile_append_of_stops hdigits Text.stops_nil
      have hdrop := Text.dropWhile_append_of_stops hdigits Text.stops_nil
      rw [List.append_nil] at htake hdrop
      simp [pointText, powerText, hne, htake, hdrop]

end Decimal

namespace Double

open Scan Decimal Binary64

/-! ## Doubles as tokens -/

/-- A finite double is a number. -/
theorem isNaN_of_isFinite {x : Double} (h : x.isFinite = true) : x.isNaN = false := by
  simp only [isFinite, decide_eq_true_eq] at h
  simp only [isNaN, nanCode, beq_eq_false_iff_ne]
  omega

/-- A finite double is not infinite. -/
theorem isInfinite_of_isFinite {x : Double} (h : x.isFinite = true) : x.isInfinite = false := by
  simp only [isFinite, decide_eq_true_eq] at h
  simp only [isInfinite, beq_eq_false_iff_ne]
  omega

/-- The text of a number that reads back as the magnitude of a code. -/
structure IsNumberText (code : Nat) (whole fraction : List Char) (power : Option Int) : Prop where
  ne_nil : whole ≠ []
  numeral : IsNumeral whole
  numeral_fraction : IsNumeral fraction
  part : fraction ≠ [] ∨ power ≠ none
  toCode : toCode ⟨ofDigits 10 (whole ++ fraction), power.getD 0 - fraction.length⟩ = code

variable {code : Nat} {digits : List Char} {weight : Int}

/-- A number below one: the first digit stands after the point, behind as many zeros as it takes. -/
theorem IsDigits.isNumberText_below {k : Nat} (h : IsDigits code digits weight)
    (hk : -weight - 1 = k) :
    IsNumberText code ['0'] (List.replicate k '0' ++ digits) none := by
  have hexp : (0 : Int) - (List.replicate k '0' ++ digits).length
      = weight - (digits.length - 1 : Nat) := by
    have hlength : 0 < digits.length := List.length_pos_iff.2 h.ne_nil
    rw [List.length_append, List.length_replicate]
    omega
  refine ⟨by simp, isNumeral_zeros 1, isNumeral_append.2 ⟨isNumeral_zeros k, h.numeral⟩,
    .inl (by simp [h.ne_nil]), ?_⟩
  rw [← h.toCode, Option.getD_none, hexp, ← ofDigits_zeros_append h.numeral (k + 1),
    List.replicate_succ]
  rfl

/-- Digits that end before the point: zeros come between, and one after the point. -/
theorem IsDigits.isNumberText_whole {n : Nat} (h : IsDigits code digits n)
    (hle : digits.length ≤ n + 1) :
    IsNumberText code (digits ++ List.replicate (n + 1 - digits.length) '0') ['0'] none := by
  have hexp : (0 : Int) - ['0'].length + (n + 1 - digits.length + 1 : Nat)
      = n - (digits.length - 1 : Nat) := by
    have hlength : 0 < digits.length := List.length_pos_iff.2 h.ne_nil
    rw [List.length_singleton]
    omega
  refine ⟨by simp [h.ne_nil], isNumeral_append.2 ⟨h.numeral, isNumeral_zeros _⟩,
    isNumeral_zeros 1, .inl (by simp), ?_⟩
  rw [← h.toCode, List.append_assoc, ← List.replicate_succ', ofDigits_append_zeros h.numeral,
    toCode_mul_pow, Option.getD_none, hexp]

/-- The point stands among the digits. -/
theorem IsDigits.isNumberText_among {n : Nat} (h : IsDigits code digits n)
    (hdrop : digits.drop (n + 1) ≠ []) :
    IsNumberText code (digits.take (n + 1)) (digits.drop (n + 1)) none := by
  have hsplit := isNumeral_append.1 (digits.take_append_drop (n + 1) ▸ h.numeral)
  have hexp : (0 : Int) - (digits.drop (n + 1)).length = n - (digits.length - 1 : Nat) := by
    have hlength : 0 < (digits.drop (n + 1)).length := List.length_pos_iff.2 hdrop
    rw [List.length_drop] at hlength ⊢
    omega
  refine ⟨by simp [h.ne_nil], hsplit.1, hsplit.2, .inl hdrop, ?_⟩
  rw [List.take_append_drop, Option.getD_none, hexp]
  exact h.toCode

/-- With an exponent, the point stands after the first digit, if there are more. -/
theorem IsDigits.isNumberText_power (h : IsDigits code digits weight) :
    IsNumberText code (digits.take 1) (digits.drop 1) (some weight) := by
  have hsplit := isNumeral_append.1 (digits.take_append_drop 1 ▸ h.numeral)
  have hexp : weight - (digits.drop 1).length = weight - (digits.length - 1 : Nat) := by
    rw [List.length_drop]
  refine ⟨by simp [h.ne_nil], hsplit.1, hsplit.2, .inr (by simp), ?_⟩
  rw [List.take_append_drop, Option.getD_some, hexp]
  exact h.toCode

/-- Digits that are laid out with a point are the text of a number that they read back as, wherever
the point stands. -/
theorem exists_isNumberText (format : DoubleFormat) (hpointed : format.pointed = true)
    (hplus : format.plus = "") (h : IsDigits code digits weight) :
    ∃ whole fraction power, format.layOut digits weight = numberText whole fraction power ∧
      IsNumberText code whole fraction power := by
  have hlength : 0 < digits.length := List.length_pos_iff.2 h.ne_nil
  unfold DoubleFormat.layOut
  -- The point stands before the digits, after them, among them, or an exponent moves it.
  by_cases hpositional : format.positional weight = true
  · rw [if_pos hpositional]
    by_cases hneg : weight < 0
    · obtain ⟨k, hk⟩ : ∃ k : Nat, -weight - 1 = k := ⟨(-weight - 1).toNat, by omega⟩
      rw [if_pos hneg, hk, Int.toNat_natCast]
      refine ⟨_, _, _, ?_, h.isNumberText_below hk⟩
      cases hs : List.replicate k '0' ++ digits with
      | nil => exact absurd hs (by simp [h.ne_nil])
      | cons c s => simp [numberText, pointText, powerText]
    · rw [if_neg hneg]
      obtain ⟨n, rfl⟩ : ∃ n : Nat, weight = n := ⟨weight.toNat, by omega⟩
      dsimp only
      rw [Int.toNat_natCast]
      by_cases hle : digits.length ≤ n + 1
      · rw [if_pos hle]
        refine ⟨_, _, _, ?_, h.isNumberText_whole hle⟩
        simp [numberText, pointText, powerText, hpointed]
      · have hdrop : digits.drop (n + 1) ≠ [] := by
          rw [Ne, List.drop_eq_nil_iff]
          exact hle
        rw [if_neg hle]
        refine ⟨_, _, _, ?_, h.isNumberText_among hdrop⟩
        cases hs : digits.drop (n + 1) with
        | nil => exact absurd hs hdrop
        | cons c s => simp [numberText, pointText, powerText]
  · rw [if_neg hpositional]
    refine ⟨_, _, _, ?_, h.isNumberText_power⟩
    match digits, hlength with
    | [c], _ => simp [numberText, pointText, powerText, hplus]
    | c :: d :: digits, _ => simp [numberText, pointText, powerText, hplus]

/-- The source text of a finite double that is not negative is the text of a number that reads back
as its magnitude. -/
theorem exists_text {x : Double} (hfinite : x.isFinite = true) (hsign : x.negative = false) :
    ∃ whole fraction power, (x.text .source).toList = numberText whole fraction power ∧
      IsNumberText x.code whole fraction power := by
  obtain ⟨whole, fraction, power, htext, hnumber⟩ :=
    exists_isNumberText .source rfl rfl (isDigits_digits DoubleFormat.source.halfUp hfinite)
  refine ⟨whole, fraction, power, ?_, hnumber⟩
  unfold text
  rw [isNaN_of_isFinite hfinite, isInfinite_of_isFinite hfinite, hsign, ← htext]
  simp

/-- The text of a number that reads back as the magnitude of a double is read as that double. -/
theorem decimalNumber_eq {x : Double} {whole fraction rest : List Char} {power : Option Int}
    (hnumber : IsNumberText x.code whole fraction power) (hfinite : x.isFinite = true)
    (hsign : x.negative = false) (hrest : EndsNumber rest) :
    decimalNumber (numberText whole fraction power ++ rest) =
      (.ok (.literal (.double x)), rest) := by
  -- The code and the sign make the double.
  have hdouble : toDouble false ⟨ofDigits 10 (whole ++ fraction),
      power.getD 0 - fraction.length⟩ = x := by
    obtain ⟨negative, code, hle⟩ := x
    obtain rfl : negative = false := hsign
    obtain rfl := hnumber.toCode
    rfl
  have hvalue : finite? (numberText whole fraction power) = some x := by
    unfold finite?
    rw [read?_numberText hnumber.numeral hnumber.numeral_fraction hnumber.ne_nil, Option.map_some,
      hdouble, Option.filter_some, if_pos hfinite]
  rw [decimalNumber_numberText hnumber.numeral hnumber.numeral_fraction hnumber.part hrest, hvalue]
  rfl

end Double

end CelShell
