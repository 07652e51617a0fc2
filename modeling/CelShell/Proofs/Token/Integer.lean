import Mathlib.Data.Nat.Digits.Defs
import CelShell.Proofs.Number.Word
import CelShell.Proofs.Token.Layout

/-!
# Integers as they are written

An integer is written in base ten, or in base sixteen behind its mark, with any number of digits and
perhaps with the suffix of an unsigned number. Its value is counted here by the places of its digits
(`Number.placeValue`), not as the scanner does it. The text is a single token, a constant worth that
value, if the value fits the type that the suffix chooses, and otherwise it is a number that does
not fit: no letter of it is taken for an exponent, for a mark or for a name.
-/

namespace CelShell

open Number

namespace Number

variable {c : Char} {s : List Char} {base base' : Nat}

/-! ## Digits of a base -/

/-- The digits in order, as many as base sixteen needs. -/
def numerals : List Char := "0123456789abcdef".toList

/-- A digit of a base; a letter counts in either case. -/
def IsDigitOf (base : Nat) (c : Char) : Prop := c.toLower ∈ numerals.take base

/-- Whether a character is a digit of a base can be computed. -/
instance (base : Nat) (c : Char) : Decidable (IsDigitOf base c) :=
  inferInstanceAs (Decidable (c.toLower ∈ numerals.take base))

/-- What digits are worth by their places, of which the last is that of the ones. -/
def placeValue (base : Nat) (digits : List Char) : Nat :=
  Nat.ofDigits base (digits.reverse.map fun c => numerals.idxOf c.toLower)

/-- The digits of a base are digits of every greater one. -/
theorem IsDigitOf.mono (h : IsDigitOf base c) (hle : base ≤ base') : IsDigitOf base' c :=
  List.take_subset_take_left numerals hle h

/-- Whether a text has digits of a base only can be computed. -/
theorem isDigitOf_of_all (h : s.all (fun c => decide (IsDigitOf base c)) = true) :
    ∀ c ∈ s, IsDigitOf base c := fun c hc => of_decide_eq_true (List.all_eq_true.1 h c hc)

/-- The lower case of a character does not come before it. -/
theorem toNat_le_toLower (c : Char) : c.toNat ≤ c.toLower.toNat := by
  unfold Char.toLower
  split
  · next hcapital =>
    have hle : c.val.toNat ≤ 'Z'.toNat := UInt32.le_iff_toNat_le.1 hcapital.2
    have hlt : c.val.toNat + 32 < 2 ^ 32 := by
      have hZ : 'Z'.toNat = 90 := rfl
      omega
    have hsum : (c.val + 32).toNat = c.val.toNat + 32 :=
      (UInt32.toNat_add _ _).trans (Nat.mod_eq_of_lt hlt)
    exact Nat.le_trans (Nat.le_add_right _ 32) (Nat.le_of_eq hsum.symm)
  · exact Nat.le_refl _

/-- What holds of the first 128 characters holds of every digit. -/
theorem IsDigitOf.forall_ascii {P : Char → Prop} (h : IsDigitOf base c)
    (hall : ∀ n < 128, P (Char.ofNat n)) : P c := by
  have hnumerals : numerals.all (fun d => d.toNat < 128) = true := by decide
  have hlower : c.toLower.toNat < 128 :=
    of_decide_eq_true (List.all_eq_true.1 hnumerals _ (List.take_subset base numerals h))
  have hlt : c.toNat < 128 := Nat.lt_of_le_of_lt (toNat_le_toLower c) hlower
  have hc := hall c.toNat hlt
  rwa [Char.ofNat_toNat] at hc

/-- The scanner knows the digits of base ten. -/
theorem IsDigitOf.isDigit (h : IsDigitOf 10 c) : isDigit c = true := by
  have hascii : ∀ n < 128, (Char.ofNat n).toLower ∈ numerals.take 10 →
      Number.isDigit (Char.ofNat n) = true := by decide +kernel
  exact h.forall_ascii (P := fun d => d.toLower ∈ numerals.take 10 → Number.isDigit d = true)
    hascii h

/-- The scanner knows the digits of base sixteen and what each is worth. -/
theorem IsDigitOf.isHexDigit (h : IsDigitOf 16 c) :
    isHexDigit c = true ∧ digitValue c = numerals.idxOf c.toLower := by
  have hascii : ∀ n < 128, (Char.ofNat n).toLower ∈ numerals.take 16 →
      Number.isHexDigit (Char.ofNat n) = true ∧
        digitValue (Char.ofNat n) = numerals.idxOf (Char.ofNat n).toLower := by
    decide +kernel
  exact h.forall_ascii (P := fun d => d.toLower ∈ numerals.take 16 →
    Number.isHexDigit d = true ∧ digitValue d = numerals.idxOf d.toLower) hascii h

/-- Reading from the first digit on gives what the digits are worth by their places. -/
theorem ofDigits_eq_placeValue (hle : base ≤ 16) (h : ∀ c ∈ s, IsDigitOf base c) :
    ofDigits base s = placeValue base s := by
  -- The scanner puts one more digit behind those that it has, so the induction is from there.
  induction s using List.reverseRecOn with
  | nil => rfl
  | append_singleton s c ih =>
    obtain ⟨hs, hc⟩ := List.forall_mem_append.1 h
    have hdigit : digitValue c = numerals.idxOf c.toLower :=
      ((hc c (List.mem_singleton_self c)).mono hle).isHexDigit.2
    calc ofDigits base (s ++ [c])
        = base * ofDigits base s + digitValue c := by
          rw [ofDigits, List.foldl_append]
          rfl
      _ = numerals.idxOf c.toLower + base * placeValue base s := by
          rw [ih hs, hdigit, Nat.add_comm]
      _ = placeValue base (s ++ [c]) := by
          rw [placeValue, placeValue, List.reverse_append, List.reverse_singleton,
            List.singleton_append, List.map_cons, Nat.ofDigits_cons]

end Number

/-! ## Texts of integers -/

/-- The base in which an integer is written. -/
inductive Radix where
  | decimal
  /-- Base sixteen, whose mark has an x that may be a capital. -/
  | hexadecimal (capital : Bool)
  deriving DecidableEq

namespace Radix

/-- The number of digits of the base. -/
def base : Radix → Nat
  | decimal => 10
  | hexadecimal _ => 16

/-- What comes before the digits. -/
def mark : Radix → List Char
  | decimal => []
  | hexadecimal capital => ['0', if capital then 'X' else 'x']

end Radix

/-- An integer as it is written: one digit or more, between the mark of their base and the suffix of
an unsigned number, if it has one. -/
structure IntegerText where
  /-- The base. -/
  radix : Radix
  /-- The digits. -/
  digits : List Char
  /-- The suffix, a letter u that may be a capital. -/
  suffix : Option Bool
  /-- There is a digit. -/
  digits_ne_nil : digits ≠ []
  /-- The digits are those of the base. -/
  isDigitOf : ∀ c ∈ digits, IsDigitOf radix.base c

namespace IntegerText

variable (t : IntegerText)

/-- Whether the integer has the suffix of an unsigned number. -/
def unsigned : Bool := t.suffix.isSome

/-- The letter of the suffix. -/
def suffixChars : List Char :=
  match t.suffix with
  | none => []
  | some capital => [if capital then 'U' else 'u']

/-- The characters of the text. -/
def chars : List Char := t.radix.mark ++ (t.digits ++ t.suffixChars)

/-- The text. -/
def text : String := String.ofList t.chars

/-- What the integer is worth. -/
def value : Nat := placeValue t.radix.base t.digits

/-- The greatest value of the type that the suffix chooses. -/
def limit : Nat := if t.unsigned then 2 ^ 64 - 1 else 2 ^ 63 - 1

/-- The stretch of a source that holds the text and nothing else. -/
def span : Span := ⟨.start, Position.start.advance t.chars⟩

/-- The constants that are worth what the text says, of the type that the suffix chooses. -/
inductive IsWorth : Literal → Prop where
  | int {n : Int64} : t.unsigned = false → n.toInt = t.value → IsWorth (.int n)
  | uint {n : UInt64} : t.unsigned = true → n.toNat = t.value → IsWorth (.uint n)

/-! ### The constant of a text -/

/-- A number fits its type exactly if it is up to the limit of that type, since it has no sign. -/
theorem fits_value_iff : Fits t.unsigned t.value ↔ t.value ≤ t.limit := by
  unfold limit
  cases t.unsigned with
  | false =>
    rw [fits_signed, if_neg Bool.false_ne_true]
    omega
  | true =>
    rw [fits_unsigned, if_pos rfl]
    omega

/-- A value within the limit is that of a constant. -/
theorem exists_integer? (h : t.value ≤ t.limit) :
    ∃ v, Scan.integer? t.unsigned t.value = some v ∧ t.IsWorth v := by
  have hfits : Fits t.unsigned t.value := t.fits_value_iff.2 h
  -- The suffix chooses the type of word.
  unfold Scan.integer?
  cases hunsigned : t.unsigned with
  | false =>
    rw [hunsigned] at hfits
    obtain ⟨n, hn, hworth⟩ := exists_int64? hfits
    rw [if_neg Bool.false_ne_true, hn]
    exact ⟨.int n, rfl, .int hunsigned hworth⟩
  | true =>
    rw [hunsigned] at hfits
    obtain ⟨n, hn, hworth⟩ := exists_uint64? hfits
    rw [if_pos rfl, hn]
    exact ⟨.uint n, rfl, .uint hunsigned (Int.ofNat_inj.1 hworth)⟩

/-- A value above the limit is that of no constant. -/
theorem integer?_of_limit_lt (h : t.limit < t.value) :
    Scan.integer? t.unsigned t.value = none := by
  have hfits : ¬ Fits t.unsigned t.value := fun hfits =>
    Nat.not_le_of_lt h (t.fits_value_iff.1 hfits)
  unfold Scan.integer?
  cases hunsigned : t.unsigned with
  | false =>
    rw [hunsigned] at hfits
    rw [if_neg Bool.false_ne_true, int64?_eq_none_iff.2 hfits]
    rfl
  | true =>
    rw [hunsigned] at hfits
    rw [if_pos rfl, uint64?_eq_none_iff.2 hfits]
    rfl

/-! ### The token of a text -/

/-- The suffix is no digit, no fraction and no exponent, and it is read as a whole. -/
theorem suffixChars_spec :
    Text.Stops isHexDigit t.suffixChars ∧ Text.Stops isDigit t.suffixChars ∧
      Scan.fraction t.suffixChars = ([], t.suffixChars) ∧
      Scan.exponent t.suffixChars = ([], t.suffixChars) ∧
      Scan.suffix t.suffixChars = (t.unsigned, []) := by
  unfold suffixChars unsigned
  cases t.suffix with
  | none => exact ⟨Text.stops_nil, Text.stops_nil, rfl, rfl, rfl⟩
  | some capital =>
    cases capital <;>
      exact ⟨Text.stops_cons.2 (by decide), Text.stops_cons.2 (by decide), rfl, rfl, rfl⟩

/-- The digits of base ten, perhaps with a suffix, are read by the scanner of decimal numbers. -/
theorem token_of_decimal (h : t.radix = .decimal) :
    ∃ c rest shown, t.chars = c :: rest ∧ isDigit c = true ∧
      Scan.token c rest = (Scan.numberOr shown (Scan.integer? t.unsigned t.value), []) := by
  obtain ⟨-, hdigit, hpoint, hpower, hsuffix⟩ := t.suffixChars_spec
  have hten : ∀ c ∈ t.digits, IsDigitOf 10 c := by
    have hof := t.isDigitOf
    rwa [h] at hof
  have hnumeral : IsNumeral t.digits := fun c hc => (hten c hc).isDigit
  have hvalue : ofDigits 10 t.digits = t.value := by
    rw [ofDigits_eq_placeValue (by decide) hten, value, h]
    rfl
  -- A zero at the start does not begin a hexadecimal number.
  have hnotHex : Text.Stops (fun d => d = 'x' || d = 'X') t.suffixChars := by
    unfold suffixChars
    cases t.suffix with
    | none => exact Text.stops_nil
    | some capital => cases capital <;> exact Text.stops_cons.2 (by decide)
  obtain ⟨c, rest, hdigits⟩ := List.exists_cons_of_ne_nil t.digits_ne_nil
  have hchars : t.chars = c :: (rest ++ t.suffixChars) := by
    rw [chars, h, hdigits]
    rfl
  -- Neither a point nor an exponent follows, so the digits are an integer.
  have hnumber := Scan.decimalNumber_of_integer hnumeral hdigit hpoint hpower hsuffix
  rw [hvalue, hdigits] at hnumber
  rw [hdigits, isNumeral_cons] at hnumeral
  exact ⟨c, _, _, hchars, hnumeral.1,
    (Scan.token_number hnumeral.1 hnumeral.2 hnotHex).trans hnumber⟩

/-- The digits of base sixteen, behind their mark, are read by the scanner of hexadecimal
numbers. -/
theorem token_of_hexadecimal {capital : Bool} (h : t.radix = .hexadecimal capital) :
    ∃ rest shown, t.chars = '0' :: rest ∧
      Scan.token '0' rest = (Scan.numberOr shown (Scan.integer? t.unsigned t.value), []) := by
  obtain ⟨hdigit, -, -, -, hsuffix⟩ := t.suffixChars_spec
  have hsixteen : ∀ c ∈ t.digits, IsDigitOf 16 c := by
    have hof := t.isDigitOf
    rwa [h] at hof
  have hhex : ∀ c ∈ t.digits, isHexDigit c = true := fun c hc => (hsixteen c hc).isHexDigit.1
  have hvalue : ofDigits 16 t.digits = t.value := by
    rw [ofDigits_eq_placeValue (Nat.le_refl 16) hsixteen, value, h]
    rfl
  have hne : t.digits.isEmpty = false := List.isEmpty_eq_false_iff.2 t.digits_ne_nil
  have hnumber : Scan.hexNumber (t.digits ++ t.suffixChars) =
      (Scan.numberOr ('0' :: 'x' :: t.digits) (Scan.integer? t.unsigned t.value), []) := by
    unfold Scan.hexNumber
    dsimp only
    rw [Text.takeWhile_append_of_stops hhex hdigit, Text.dropWhile_append_of_stops hhex hdigit,
      hsuffix, hne, if_neg Bool.false_ne_true, hvalue]
  have hchars : t.chars =
      '0' :: (if capital then 'X' else 'x') :: (t.digits ++ t.suffixChars) := by
    rw [chars, h]
    rfl
  -- An x after the zero decides for base sixteen, before the zero is taken for a decimal digit.
  have htoken : Scan.token '0' ((if capital then 'X' else 'x') :: (t.digits ++ t.suffixChars)) =
      Scan.hexNumber (t.digits ++ t.suffixChars) := by
    cases capital <;> rfl
  exact ⟨_, _, hchars, htoken.trans hnumber⟩

/-- The text is one token, and nothing is left of it. -/
theorem exists_token :
    ∃ c rest shown, t.chars = c :: rest ∧ isDigit c = true ∧
      Scan.token c rest = (Scan.numberOr shown (Scan.integer? t.unsigned t.value), []) := by
  cases h : t.radix with
  | decimal => exact t.token_of_decimal h
  | hexadecimal capital =>
    obtain ⟨rest, shown, hchars, htoken⟩ := t.token_of_hexadecimal h
    exact ⟨'0', rest, shown, hchars, rfl, htoken⟩

/-- A value within the limit makes the text that one constant. -/
theorem lexes_chars {v : Literal} (h : Scan.integer? t.unsigned t.value = some v) :
    Scan.Lexes t.chars [.literal v] := by
  obtain ⟨c, rest, shown, hchars, hc, htoken⟩ := t.exists_token
  rw [h] at htoken
  rw [hchars]
  exact Scan.lexes_token (Scan.isLayout_of_class hc (by decide))
    (.inl (Scan.ne_of_class hc (by decide))) htoken (.done rfl)

end IntegerText

namespace Token

/-- The tokens of a text that is a single one on a span, or its fault. -/
def alone (span : Span) : Except TokenFault Kind → Except LexError (List Token)
  | .ok k => .ok [⟨k, span⟩, ⟨.eof, ⟨span.stop, span.stop⟩⟩]
  | .error fault => .error ⟨fault, span⟩

/-- A text that one token takes as a whole, and that starts with a digit, has no other tokens. -/
theorem listFrom_of_token {c : Char} {text : List Char} {r : Except TokenFault Kind}
    (hc : isDigit c = true) (htoken : Scan.token c text = (r, [])) (p : Position) :
    listFrom p (c :: text) = alone ⟨p, p.advance (c :: text)⟩ r := by
  -- A digit is no layout, so the token starts at once.
  have hskip : Scan.skipLayout false (c :: text) = c :: text := by
    rw [Scan.skipLayout, Scan.isLayout_of_class hc (by decide), if_neg Bool.false_ne_true]
    rintro rest rfl
    exact absurd hc (by decide)
  have hfrom : positionBefore (c :: text) p (c :: text) = p :=
    Scan.positionBefore_append p [] (c :: text)
  have hto : positionBefore [] p (c :: text) = p.advance (c :: text) := by
    have happend := Scan.positionBefore_append p (c :: text) []
    rwa [List.append_nil] at happend
  -- Behind the token only the end mark is left.
  have hdone : ∀ q, listFrom q [] = .ok [⟨.eof, ⟨q, q⟩⟩] := by
    intro q
    rw [listFrom]
    rfl
  rw [listFrom]
  split
  · next heq =>
    rw [hskip] at heq
    cases heq
  · next heq =>
    rw [hskip] at heq
    cases heq
    dsimp only
    rw [hfrom]
    split
    · next fault rest hread =>
      rw [htoken] at hread
      cases hread
      rw [hto]
      rfl
    · next k rest hread =>
      rw [htoken] at hread
      cases hread
      rw [hto, hdone]
      rfl

end Token

namespace IntegerText

variable (t : IntegerText)

/-- The text is read as a constant that is worth its value, if that is within the limit, and
otherwise as a number that does not fit. -/
theorem list_text :
    (t.value ≤ t.limit → ∃ v, t.IsWorth v ∧ Scan.Lexes t.chars [.literal v] ∧
      Token.list t.text = .ok [⟨.literal v, t.span⟩, ⟨.eof, ⟨t.span.stop, t.span.stop⟩⟩]) ∧
    (t.limit < t.value →
      ∃ shown, Token.list t.text = .error ⟨.invalidNumber shown, t.span⟩) := by
  -- One token takes all characters, and the limit decides what it is.
  obtain ⟨c, rest, shown, hchars, hc, htoken⟩ := t.exists_token
  have hlist := Token.listFrom_of_token hc htoken .start
  rw [← hchars] at hlist
  constructor
  · intro h
    obtain ⟨v, hv, hworth⟩ := t.exists_integer? h
    rw [hv] at hlist
    refine ⟨v, hworth, t.lexes_chars hv, ?_⟩
    rw [Token.list, text, String.toList_ofList, hlist]
    rfl
  · intro h
    rw [t.integer?_of_limit_lt h] at hlist
    refine ⟨String.ofList shown, ?_⟩
    rw [Token.list, text, String.toList_ofList, hlist]
    rfl

end IntegerText

end CelShell
