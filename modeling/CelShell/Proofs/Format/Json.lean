import CelShell.Format.Json
import CelShell.Proofs.Format.Number

/-!
# The text of a JSON value determines the value

A JSON value without NaN or infinity is known from its text, also if more text follows that does not
go on with a number (`Json.write_append_inj`). The characters of a string are told apart by reading
one written character at a time, a number ends where no character of a number follows, and the
elements of an array and the fields of an object are told from the closing bracket by the comma
before each.
-/

namespace CelShell

namespace Json

open Number

/-! ## Strings -/

/-- Reads one character of a JSON string, if the string does not end here. -/
def unescape : List Char → Option (Char × List Char)
  | '\\' :: 'b' :: s => some ('\x08', s)
  | '\\' :: 'f' :: s => some ('\x0c', s)
  | '\\' :: 'n' :: s => some ('\n', s)
  | '\\' :: 'r' :: s => some ('\r', s)
  | '\\' :: 't' :: s => some ('\t', s)
  | '\\' :: 'u' :: a :: b :: c :: d :: s => some (Char.ofNat (ofDigits 16 [a, b, c, d]), s)
  | '\\' :: c :: s => some (c, s)
  | '"' :: _ => none
  | c :: s => some (c, s)
  | [] => none

/-- The code of a control character is read from its four digits. -/
theorem unescape_hexDigits {c : Char} (h : c.toNat < 0x20) (s : List Char) :
    unescape ('\\' :: 'u' :: (Text.hexDigits 4 c.toNat ++ s)) = some (c, s) := by
  have hall : ∀ n < 0x20,
      (Text.hexDigits 4 n).length = 4 ∧ ofDigits 16 (Text.hexDigits 4 n) = n := by
    decide +kernel
  obtain ⟨hlength, hvalue⟩ := hall c.toNat h
  match hdigits : Text.hexDigits 4 c.toNat, hlength with
  | [d₁, d₂, d₃, d₄], _ =>
    rw [hdigits] at hvalue
    change some (Char.ofNat (ofDigits 16 [d₁, d₂, d₃, d₄]), s) = some (c, s)
    rw [hvalue, Char.ofNat_toNat]

/-- A character is read back from how it is written. -/
theorem unescape_escapeChar (c : Char) (s : List Char) :
    unescape (escapeChar c ++ s) = some (c, s) := by
  unfold escapeChar
  by_cases hquote : c = '"'
  · rw [if_pos hquote, hquote]
    rfl
  rw [if_neg hquote]
  by_cases hbackslash : c = '\\'
  · rw [if_pos hbackslash, hbackslash]
    rfl
  rw [if_neg hbackslash]
  split_ifs with hb hf hn hr ht hcontrol
  · rw [hb]
    rfl
  · rw [hf]
    rfl
  · rw [hn]
    rfl
  · rw [hr]
    rfl
  · rw [ht]
    rfl
  · exact unescape_hexDigits hcontrol s
  · rw [List.singleton_append]
    -- A character that stands for itself begins no escape.
    unfold unescape
    split <;> simp_all

/-- The characters of a string end at the quote that is not part of one of them. -/
theorem flatMap_escapeChar_inj {r r' : List Char} : {s t : List Char} →
    s.flatMap escapeChar ++ '"' :: r = t.flatMap escapeChar ++ '"' :: r' → s = t ∧ r = r'
  | [], [], h => ⟨rfl, (List.cons.inj h).2⟩
  | [], c :: t, h => by
    -- No character is written as the closing quote, so one text cannot end before the other.
    have hread := congrArg unescape h
    rw [List.flatMap_cons, List.append_assoc, unescape_escapeChar] at hread
    cases hread
  | c :: s, [], h => by
    have hread := congrArg unescape h
    rw [List.flatMap_cons, List.append_assoc, unescape_escapeChar] at hread
    cases hread
  | c :: s, d :: t, h => by
    have hread := congrArg unescape h
    -- Both texts begin with the same character, and go on alike.
    simp only [List.flatMap_cons, List.append_assoc, unescape_escapeChar, Option.some.injEq,
      Prod.mk.injEq] at hread
    obtain ⟨rfl, hrest⟩ := hread
    obtain ⟨rfl, hr⟩ := flatMap_escapeChar_inj hrest
    exact ⟨rfl, hr⟩

/-- A string is known from its text. -/
theorem quote_append_inj {s t : String} {r r' : List Char}
    (h : (quote s).toList ++ r = (quote t).toList ++ r') : s = t ∧ r = r' := by
  simp only [quote, String.toList_ofList, List.cons_append, List.append_assoc,
    List.nil_append, List.cons.injEq, true_and] at h
  obtain ⟨hst, hr⟩ := flatMap_escapeChar_inj h
  exact ⟨String.toList_injective hst, hr⟩

/-! ## Values -/

mutual

/-- Whether every double in a value is a finite number. -/
def IsFinite : Json → Prop
  | double d => d.isFinite = true
  | array elements => AreFinite elements
  | object fields => HaveFinite fields
  | null | bool _ | integer _ | string _ => True

/-- Whether every double in some values is a finite number. -/
def AreFinite : List Json → Prop
  | [] => True
  | e :: rest => e.IsFinite ∧ AreFinite rest

/-- Whether every double in some fields is a finite number. -/
def HaveFinite : List (String × Json) → Prop
  | [] => True
  | (_, v) :: rest => v.IsFinite ∧ HaveFinite rest

end

/-- What the first character of a text tells of the form of a value: all characters of numbers tell
the same, and so do those of the two truth values. -/
def formOf (c : Char) : Char := if isNumberChar c then '0' else if c = 'f' then 't' else c

/-- What the first character of its text tells of the form of a value. -/
def form : Json → Char
  | null => 'n'
  | bool _ => 't'
  | integer _ | double _ => '0'
  | string _ => '"'
  | array _ => '['
  | object _ => '\x7b'

variable {indent depth : Nat} {v w : Json} {r s : List Char}

/-! ### The text of each form -/

-- The equations of the recursion are made ready here, once for all that rewrites with them.
attribute [local simp] write writeElements writeFields

/-- How `null` is written. -/
theorem toList_write_null : (write indent depth null).toList = ['n', 'u', 'l', 'l'] := by
  rw [write]
  rfl

/-- How a truth value is written. -/
theorem toList_write_bool (b : Bool) :
    (write indent depth (bool b)).toList = (if b then "true" else "false").toList := by
  rw [write]

/-- How an array without elements is written, on one line. -/
theorem toList_write_array_nil : (write indent depth (array [])).toList = ['[', ']'] := by
  rw [write]
  rfl

/-- How an object without fields is written, on one line. -/
theorem toList_write_object_nil : (write indent depth (object [])).toList = ['\x7b', '\x7d'] := by
  rw [write]
  rfl

/-- A line starts with a line break and the spaces of its depth. -/
theorem toList_lineStart (indent depth : Nat) :
    (lineStart indent depth).toList = '\n' :: List.replicate (indent * depth) ' ' := by
  simp [lineStart]

/-- How the elements behind the first are written, each behind a comma and on a line of its own. -/
theorem toList_writeElements_cons (e : Json) (rest : List Json) :
    (writeElements indent depth (e :: rest)).toList ++ r =
      ',' :: ((lineStart indent depth).toList ++ ((write indent depth e).toList
        ++ ((writeElements indent depth rest).toList ++ r))) := by
  rw [writeElements]
  simp

/-- How the fields behind the first are written, each behind a comma and on a line of its own. -/
theorem toList_writeFields_cons (k : String) (e : Json) (rest : List (String × Json)) :
    (writeFields indent depth ((k, e) :: rest)).toList ++ r =
      ',' :: ((lineStart indent depth).toList ++ ((quote k).toList
        ++ (':' :: ' ' :: ((write indent depth e).toList
          ++ ((writeFields indent depth rest).toList ++ r))))) := by
  rw [writeFields]
  simp

/-- How an array with elements is written: they are one level deeper, and the bracket that closes it
is on a line of its own. -/
theorem toList_write_array_cons (e : Json) (rest : List Json) :
    (write indent depth (array (e :: rest))).toList ++ r =
      '[' :: ((lineStart indent (depth + 1)).toList ++ ((write indent (depth + 1) e).toList
        ++ ((writeElements indent (depth + 1) rest).toList
          ++ ((lineStart indent depth).toList ++ ']' :: r)))) := by
  rw [write]
  simp

/-- How an object with fields is written: they are one level deeper, and the brace that closes it is
on a line of its own. -/
theorem toList_write_object_cons (k : String) (e : Json) (rest : List (String × Json)) :
    (write indent depth (object ((k, e) :: rest))).toList ++ r =
      '\x7b' :: ((lineStart indent (depth + 1)).toList ++ ((quote k).toList
        ++ (':' :: ' ' :: ((write indent (depth + 1) e).toList
          ++ ((writeFields indent (depth + 1) rest).toList
            ++ ((lineStart indent depth).toList ++ '\x7d' :: r)))))) := by
  rw [write]
  simp

/-- An array is written as its elements are with a comma before each, without the first comma. -/
theorem writeElements_eq_of_write_array {es fs : List Json}
    (h : (write indent depth (array es)).toList ++ r =
      (write indent depth (array fs)).toList ++ s) :
    (writeElements indent (depth + 1) es).toList ++ ((lineStart indent depth).toList ++ ']' :: r) =
      (writeElements indent (depth + 1) fs).toList
        ++ ((lineStart indent depth).toList ++ ']' :: s) := by
  cases es with
  | nil =>
    cases fs with
    | nil => rw [List.append_cancel_left h]
    | cons f fs =>
      -- Only the empty array closes right after it opens.
      rw [toList_write_array_nil, toList_write_array_cons, toList_lineStart] at h
      exact absurd (List.cons.inj (List.cons.inj h).2).1 (by decide)
  | cons e es =>
    cases fs with
    | nil =>
      rw [toList_write_array_nil, toList_write_array_cons, toList_lineStart] at h
      exact absurd (List.cons.inj (List.cons.inj h).2).1 (by decide)
    | cons f fs =>
      rw [toList_write_array_cons, toList_write_array_cons] at h
      rw [toList_writeElements_cons, toList_writeElements_cons, (List.cons.inj h).2]

/-- An object is written as its fields are with a comma before each, without the first comma. -/
theorem writeFields_eq_of_write_object {es fs : List (String × Json)}
    (h : (write indent depth (object es)).toList ++ r =
      (write indent depth (object fs)).toList ++ s) :
    (writeFields indent (depth + 1) es).toList
        ++ ((lineStart indent depth).toList ++ '\x7d' :: r) =
      (writeFields indent (depth + 1) fs).toList
        ++ ((lineStart indent depth).toList ++ '\x7d' :: s) := by
  cases es with
  | nil =>
    cases fs with
    | nil => rw [List.append_cancel_left h]
    | cons f fs =>
      -- Only the empty object closes right after it opens.
      rw [toList_write_object_nil, toList_write_object_cons, toList_lineStart] at h
      exact absurd (List.cons.inj (List.cons.inj h).2).1 (by decide)
  | cons e es =>
    cases fs with
    | nil =>
      rw [toList_write_object_nil, toList_write_object_cons, toList_lineStart] at h
      exact absurd (List.cons.inj (List.cons.inj h).2).1 (by decide)
    | cons f fs =>
      rw [toList_write_object_cons, toList_write_object_cons] at h
      rw [toList_writeFields_cons, toList_writeFields_cons, (List.cons.inj h).2]

/-- A number is written with at least one character, and only with characters of numbers. -/
theorem write_of_number (hv : v.IsFinite) (hform : v.form = '0') (indent depth : Nat) :
    (v.write indent depth).toList ≠ [] ∧
      ∀ c ∈ (v.write indent depth).toList, isNumberChar c = true := by
  cases v with
  | integer n =>
    rw [write]
    refine ⟨?_, isNumberChar_integerText n⟩
    rw [toList_integerText]
    exact List.append_ne_nil_of_right_ne_nil _ (toDigits_ne_nil _)
  | double d =>
    replace hv : d.isFinite = true := hv
    rw [write, if_pos hv]
    refine ⟨?_, d.isNumberChar_text (List.forall_mem_singleton.2 rfl) hv⟩
    -- The layout of a double has a point or an exponent, so it is not empty.
    obtain ⟨c, hc, -⟩ := DoubleFormat.exists_mark_mem_layOut_json
      (d.digits DoubleFormat.json.halfUp).1 (d.digits DoubleFormat.json.halfUp).2
    rw [Double.toList_text _ hv]
    exact List.ne_nil_of_mem (List.mem_append_right _ hc)
  | null | bool _ | string _ | array _ | object _ => simp [form] at hform

/-- The form of a value is known from the first character of its text. -/
theorem form_write (hv : v.IsFinite) (indent depth : Nat) (r : List Char) :
    ((v.write indent depth).toList ++ r).head?.map formOf = some v.form := by
  cases v with
  | null =>
    rw [toList_write_null]
    rfl
  | bool b =>
    rw [toList_write_bool]
    cases b <;> rfl
  | integer _ | double _ =>
    -- A number begins with one of its characters, and no other value does.
    obtain ⟨hne, hall⟩ := write_of_number hv rfl indent depth
    obtain ⟨c, t, ht⟩ := List.exists_cons_of_ne_nil hne
    rw [ht] at hall ⊢
    simp [formOf, hall c List.mem_cons_self, form]
  | string s =>
    rw [write, quote, String.toList_ofList]
    rfl
  | array elements =>
    cases elements with
    | nil =>
      rw [toList_write_array_nil]
      rfl
    | cons e rest =>
      rw [toList_write_array_cons]
      rfl
  | object fields =>
    cases fields with
    | nil =>
      rw [toList_write_object_nil]
      rfl
    | cons e rest =>
      rw [toList_write_object_cons]
      rfl

/-- The texts of values of different forms never start alike. -/
theorem form_eq (hv : v.IsFinite) (hw : w.IsFinite)
    (h : (v.write indent depth).toList ++ r = (w.write indent depth).toList ++ s) :
    v.form = w.form := by
  have hform := form_write hv indent depth r
  rw [h, form_write hw] at hform
  exact (Option.some.inj hform).symm

/-! ### Numbers -/

/-- Two numbers with the same text are the same number. -/
theorem eq_of_write_number (hv : v.IsFinite) (hw : w.IsFinite) (hvform : v.form = '0')
    (hwform : w.form = '0') (h : v.write indent depth = w.write indent depth) : v = w := by
  cases v with
  | integer n =>
    cases w with
    | integer m =>
      rw [write, write] at h
      rw [integerText_injective h]
    | double e =>
      replace hw : e.isFinite = true := hw
      rw [write, write, if_pos hw] at h
      -- A double is written with a point or an exponent, an integer with neither.
      exact absurd h (integerText_ne_text hw)
    | null | bool _ | string _ | array _ | object _ => simp [form] at hwform
  | double d =>
    replace hv : d.isFinite = true := hv
    cases w with
    | integer m =>
      rw [write, write, if_pos hv] at h
      exact absurd h.symm (integerText_ne_text hv)
    | double e =>
      replace hw : e.isFinite = true := hw
      rw [write, write, if_pos hv, if_pos hw] at h
      rw [Double.eq_of_text_json hv hw h]
    | null | bool _ | string _ | array _ | object _ => simp [form] at hwform
  | null | bool _ | string _ | array _ | object _ => simp [form] at hvform

/-- A number is known from its text if no character of a number follows. -/
theorem write_append_inj_number (hv : v.IsFinite) (hw : w.IsFinite) (hform : v.form = '0')
    (hr : Text.Stops isNumberChar r) (hs : Text.Stops isNumberChar s)
    (h : (v.write indent depth).toList ++ r = (w.write indent depth).toList ++ s) :
    v = w ∧ r = s := by
  have hwform : w.form = '0' := (form_eq hv hw h).symm.trans hform
  have hvchars := (write_of_number hv hform indent depth).2
  have hwchars := (write_of_number hw hwform indent depth).2
  have htake := congrArg (List.takeWhile isNumberChar) h
  have hdrop := congrArg (List.dropWhile isNumberChar) h
  rw [Text.takeWhile_append_of_stops hvchars hr, Text.takeWhile_append_of_stops hwchars hs] at htake
  rw [Text.dropWhile_append_of_stops hvchars hr, Text.dropWhile_append_of_stops hwchars hs] at hdrop
  exact ⟨eq_of_write_number hv hw hform hwform (String.toList_injective htake), hdrop⟩

/-! ### All values -/

/-- The start of a line ends a number. -/
theorem stops_lineStart (indent depth : Nat) (r : List Char) :
    Text.Stops isNumberChar ((lineStart indent depth).toList ++ r) := by
  rw [toList_lineStart]
  exact Text.stops_cons.2 (by decide)

/-- Elements and what closes their array do not go on with a number. -/
theorem stops_writeElements (depth' : Nat) (es : List Json) (r : List Char) :
    Text.Stops isNumberChar
      ((writeElements indent depth es).toList ++ ((lineStart indent depth').toList ++ r)) := by
  cases es with
  | nil =>
    rw [writeElements]
    exact stops_lineStart indent depth' r
  | cons e rest =>
    rw [toList_writeElements_cons]
    exact Text.stops_cons.2 (by decide)

/-- Fields and what closes their object do not go on with a number. -/
theorem stops_writeFields (depth' : Nat) (es : List (String × Json)) (r : List Char) :
    Text.Stops isNumberChar
      ((writeFields indent depth es).toList ++ ((lineStart indent depth').toList ++ r)) := by
  cases es with
  | nil =>
    rw [writeFields]
    exact stops_lineStart indent depth' r
  | cons e rest =>
    rw [toList_writeFields_cons]
    exact Text.stops_cons.2 (by decide)

mutual

/-- A value is known from its text if no character of a number follows. -/
theorem write_append_inj (depth : Nat) (v w : Json) (hv : v.IsFinite) (hw : w.IsFinite)
    {r s : List Char} (hr : Text.Stops isNumberChar r) (hs : Text.Stops isNumberChar s)
    (h : (v.write indent depth).toList ++ r = (w.write indent depth).toList ++ s) :
    v = w ∧ r = s := by
  have hform := form_eq hv hw h
  -- The values have one form, so the cases of other forms are impossible.
  cases v with
  | null =>
    cases w with
    | null => exact ⟨rfl, List.append_cancel_left h⟩
    | _ => exact absurd hform (by simp [form])
  | bool b =>
    cases w with
    | bool b' =>
      rw [toList_write_bool, toList_write_bool] at h
      cases b <;> cases b'
      · exact ⟨rfl, List.append_cancel_left h⟩
      · exact absurd (List.cons.inj h).1 (by decide)
      · exact absurd (List.cons.inj h).1 (by decide)
      · exact ⟨rfl, List.append_cancel_left h⟩
    | _ => exact absurd hform (by simp [form])
  | integer _ | double _ => exact write_append_inj_number hv hw rfl hr hs h
  | string a =>
    cases w with
    | string b =>
      rw [write, write] at h
      obtain ⟨rfl, hr⟩ := quote_append_inj h
      exact ⟨rfl, hr⟩
    | _ => exact absurd hform (by simp [form])
  | array es =>
    cases w with
    | array fs =>
      -- What differs is the text of the elements, and behind them the array closes.
      obtain ⟨rfl, hend⟩ :=
        writeElements_append_inj (depth + 1) es fs hv hw (writeElements_eq_of_write_array h)
      exact ⟨rfl, (List.cons.inj hend).2⟩
    | _ => exact absurd hform (by simp [form])
  | object es =>
    cases w with
    | object fs =>
      obtain ⟨rfl, hend⟩ :=
        writeFields_append_inj (depth + 1) es fs hv hw (writeFields_eq_of_write_object h)
      exact ⟨rfl, (List.cons.inj hend).2⟩
    | _ => exact absurd hform (by simp [form])

/-- Elements are known from their text if a new line without an element follows. -/
theorem writeElements_append_inj (depth : Nat) (es fs : List Json) (hes : AreFinite es)
    (hfs : AreFinite fs) {depth' : Nat} {r s : List Char}
    (h : (writeElements indent depth es).toList ++ ((lineStart indent depth').toList ++ r) =
      (writeElements indent depth fs).toList ++ ((lineStart indent depth').toList ++ s)) :
    es = fs ∧ r = s := by
  cases es with
  | nil =>
    cases fs with
    | nil => exact ⟨rfl, List.append_cancel_left (List.append_cancel_left h)⟩
    | cons f fs =>
      rw [toList_writeElements_cons, writeElements, toList_lineStart] at h
      -- A comma is not the line feed before the closing bracket.
      exact absurd (List.cons.inj h).1 (by decide)
  | cons e es =>
    cases fs with
    | nil =>
      rw [toList_writeElements_cons, writeElements, toList_lineStart indent depth'] at h
      exact absurd (List.cons.inj h).1 (by decide)
    | cons f fs =>
      rw [toList_writeElements_cons, toList_writeElements_cons] at h
      obtain ⟨rfl, hrest⟩ := write_append_inj depth e f hes.1 hfs.1 (stops_writeElements _ es _)
        (stops_writeElements _ fs _) (List.append_cancel_left (List.cons.inj h).2)
      obtain ⟨rfl, hr⟩ := writeElements_append_inj depth es fs hes.2 hfs.2 hrest
      exact ⟨rfl, hr⟩

/-- Fields are known from their text if a new line without a field follows. -/
theorem writeFields_append_inj (depth : Nat) (es fs : List (String × Json)) (hes : HaveFinite es)
    (hfs : HaveFinite fs) {depth' : Nat} {r s : List Char}
    (h : (writeFields indent depth es).toList ++ ((lineStart indent depth').toList ++ r) =
      (writeFields indent depth fs).toList ++ ((lineStart indent depth').toList ++ s)) :
    es = fs ∧ r = s := by
  cases es with
  | nil =>
    cases fs with
    | nil => exact ⟨rfl, List.append_cancel_left (List.append_cancel_left h)⟩
    | cons f fs =>
      rw [toList_writeFields_cons, writeFields, toList_lineStart] at h
      -- A comma is not the line feed before the closing bracket.
      exact absurd (List.cons.inj h).1 (by decide)
  | cons e es =>
    obtain ⟨k, e⟩ := e
    cases fs with
    | nil =>
      rw [toList_writeFields_cons, writeFields, toList_lineStart indent depth'] at h
      exact absurd (List.cons.inj h).1 (by decide)
    | cons f fs =>
      obtain ⟨k', f⟩ := f
      rw [toList_writeFields_cons, toList_writeFields_cons] at h
      -- The name comes first, then the value, then the other fields.
      obtain ⟨rfl, hvalue⟩ := quote_append_inj (List.append_cancel_left (List.cons.inj h).2)
      obtain ⟨rfl, hrest⟩ := write_append_inj depth e f hes.1 hfs.1 (stops_writeFields _ es _)
        (stops_writeFields _ fs _) (List.cons.inj (List.cons.inj hvalue).2).2
      obtain ⟨rfl, hr⟩ := writeFields_append_inj depth es fs hes.2 hfs.2 hrest
      exact ⟨rfl, hr⟩

end

/-- Two values with the same text are the same value. -/
theorem eq_of_text (hv : v.IsFinite) (hw : w.IsFinite) (h : v.text indent = w.text indent) :
    v = w :=
  (write_append_inj 0 v w hv hw Text.stops_nil Text.stops_nil
    (congrArg (fun t => t.toList ++ []) h)).1

end Json

end CelShell
