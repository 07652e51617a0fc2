import CelShell.Proofs.Token.Lexing
import CelShell.Proofs.Token.Number

/-!
# Texts of tokens

What the printer writes for a token is read as that token and nothing more, whatever comes after it,
as long as it is one of the marks that the printer puts there (`Scan.Boundary`). A text that spells
kinds in this way (`Scan.Spells`) can be put before any text that starts so, and texts of
expressions are put together from such pieces.
-/

namespace CelShell

open Number

namespace Scan

variable {c : Char} {s text rest : List Char} {k : Kind} {ks : List Kind} {name : String}

/-! ## Layout -/

/-- A space is passed over. -/
theorem lexes_space (h : Lexes rest ks) : Lexes (' ' :: rest) ks := by
  have hskip : skipLayout false (' ' :: rest) = skipLayout false rest := by
    rw [skipLayout, if_pos (by decide)]
    simp
  cases h with
  | done hlayout => exact .done (hskip.trans hlayout)
  | token hlayout htoken hrest => exact .token (hskip.trans hlayout) htoken hrest

/-- A token that starts with neither layout nor a comment is the first one. -/
theorem lexes_token (hlayout : isLayout c = false) (hcomment : c ≠ '/' ∨ ∀ t, text ≠ '/' :: t)
    (htoken : token c text = (.ok k, rest)) (h : Lexes rest ks) : Lexes (c :: text) (k :: ks) := by
  refine .token ?_ htoken h
  rw [skipLayout, if_neg (by rw [hlayout]; exact Bool.false_ne_true)]
  rintro t rfl rfl
  exact hcomment.elim (fun hc => hc rfl) fun ht => ht t rfl

/-- A character of a class is none outside it. -/
theorem ne_of_class {p : Char → Bool} (hc : p c = true) {d : Char} (hd : p d = false) : c ≠ d := by
  rintro rfl
  rw [hc] at hd
  cases hd

/-- A class without a character of layout. -/
theorem isLayout_of_class {p : Char → Bool} (hc : p c = true)
    (hp : [' ', '\t', '\r', '\n', '\x0c'].all (fun d => !p d) = true) : isLayout c = false := by
  by_contra hlayout
  rw [Bool.not_eq_false, isLayout] at hlayout
  simp only [Bool.or_eq_true, beq_iff_eq, or_assoc] at hlayout
  have hmem : c ∈ [' ', '\t', '\r', '\n', '\x0c'] := by simpa using hlayout
  have hnot := List.all_eq_true.1 hp c hmem
  rw [hc] at hnot
  cases hnot

/-- A token that is neither a raw string nor a hexadecimal number is read as any other. -/
theorem token_eq_tokenAt (hraw : c ≠ 'r' ∧ c ≠ 'R' ∨ Text.Stops isQuote text)
    (hhex : c ≠ '0' ∨ Text.Stops (fun d => d = 'x' || d = 'X') text) :
    token c text = token.tokenAt c text := by
  unfold token
  split
  · rename_i q after
    -- Neither of the two forms that two characters begin is there.
    have hnotRaw : ((c = 'r' || c = 'R') && isQuote q) = false := by
      rcases hraw with ⟨hr, hR⟩ | hquote
      · rw [decide_eq_false hr, decide_eq_false hR, Bool.or_self, Bool.false_and]
      · rw [hquote q after rfl, Bool.and_false]
    have hnotHex : (c = '0' && (q = 'x' || q = 'X')) = false := by
      rcases hhex with hzero | hx
      · rw [decide_eq_false hzero, Bool.false_and]
      · have hq : (q = 'x' || q = 'X') = false := hx q after rfl
        rw [hq, Bool.and_false]
    rw [hnotRaw, if_neg Bool.false_ne_true, hnotHex, if_neg Bool.false_ne_true]
  · rfl

/-! ## Symbols -/

/-- What follows a symbol makes it neither a longer one nor a comment. -/
def Alone : Symbol → List Char → Prop
  | .less, rest | .greater, rest | .not, rest => ∀ t, rest ≠ '=' :: t
  | .slash, rest => ∀ t, rest ≠ '/' :: t
  | _, _ => True

/-- A character that starts no other token starts a symbol. -/
theorem token_symbol {sym : Symbol} (hletter : c ≠ 'r' ∧ c ≠ 'R' ∧ c ≠ '0')
    (hstart : Unicode.isIdentifierStart c = false) (hdigit : isDigit c = false)
    (hquote : isQuote c = false) (hsymbol : symbol (c :: text) = some (sym, rest)) :
    token c text = (.ok (.symbol sym), rest) := by
  rw [token_eq_tokenAt (.inl ⟨hletter.1, hletter.2.1⟩) (.inl hletter.2.2)]
  unfold token.tokenAt
  rw [hstart, hdigit, hquote, hsymbol]
  rfl

/-- A symbol is read, as long as what follows leaves it alone. -/
theorem lexes_symbol (sym : Symbol) (halone : Alone sym rest) (h : Lexes rest ks) :
    Lexes (sym.text.toList ++ rest) (.symbol sym :: ks) := by
  -- Three symbols are the beginning of longer ones, and two slashes would be a comment.
  cases sym
  case less =>
    have hnext : ∀ t, rest ≠ '=' :: t := halone
    have hsymbol : symbol ('<' :: rest) = some (.less, rest) := by simp only [symbol]
    exact lexes_token (by decide) (.inl (by decide))
      (token_symbol (by decide) (by decide) (by decide) (by decide) hsymbol) h
  case greater =>
    have hnext : ∀ t, rest ≠ '=' :: t := halone
    have hsymbol : symbol ('>' :: rest) = some (.greater, rest) := by simp only [symbol]
    exact lexes_token (by decide) (.inl (by decide))
      (token_symbol (by decide) (by decide) (by decide) (by decide) hsymbol) h
  case not =>
    have hnext : ∀ t, rest ≠ '=' :: t := halone
    have hsymbol : symbol ('!' :: rest) = some (.not, rest) := by simp only [symbol]
    exact lexes_token (by decide) (.inl (by decide))
      (token_symbol (by decide) (by decide) (by decide) (by decide) hsymbol) h
  case slash =>
    exact lexes_token (by decide) (.inr halone)
      (token_symbol (by decide) (by decide) (by decide) (by decide) rfl) h
  all_goals
    exact lexes_token (by decide) (.inl (by decide))
      (token_symbol (by decide) (by decide) (by decide) (by decide) rfl) h

/-- An equality sign starts no token but the operator of two. -/
theorem eq_equals_of_token (h : token '=' text = (.ok k, rest)) : k = .symbol .equals := by
  rw [token_eq_tokenAt (.inl (by decide)) (.inl (by decide)), token.tokenAt, if_neg (by decide),
    if_neg (by decide), if_neg (by decide)] at h
  cases text with
  | nil => cases h
  | cons d after =>
    by_cases hd : d = '='
    · subst hd
      cases h
      rfl
    · -- One equality sign alone is no symbol.
      have hnone : symbol ('=' :: d :: after) = none := by
        unfold symbol
        split
        · rename_i heq
          exact absurd (List.cons.inj (List.cons.inj heq).2).1 hd
        all_goals first | rfl | (rename_i heq; cases heq)
      rw [hnone] at h
      cases h

/-- A text whose first token is not the operator of two equality signs makes no other symbol of an
exclamation mark before it. -/
theorem Lexes.alone_not (h : Lexes s (k :: ks)) (hk : k ≠ .symbol .equals) : Alone .not s := by
  rintro text rfl
  cases h with
  | token hlayout htoken =>
    have hskip : skipLayout false ('=' :: text) = '=' :: text := rfl
    rw [hskip, List.cons.injEq] at hlayout
    obtain ⟨rfl, rfl⟩ := hlayout
    exact hk (eq_equals_of_token htoken)

/-! ## Marks after a piece of text -/

/-- The marks other than the point that the printer puts after a name, a constant or a bracket. -/
def marks : List Char := [' ', '(', ')', '[', ']', '\x7d', ',', ':']

/-- A text that starts with a mark, or ends there. After a point comes a field, never a digit. -/
inductive Boundary : List Char → Prop where
  | finish : Boundary []
  | mark {c : Char} {rest : List Char} : c ∈ marks → Boundary (c :: rest)
  | point {rest : List Char} : Text.Stops isDigit rest → Boundary ('.' :: rest)

/-- What no mark is, the text after a piece does not start with. -/
theorem Boundary.stops {p : Char → Bool} (h : Boundary rest)
    (hp : ('.' :: marks).all (fun c => !p c) = true) : Text.Stops p rest := by
  have hmarks : ∀ c ∈ '.' :: marks, p c = false := by
    intro c hc
    rw [← Bool.not_eq_true']
    exact List.all_eq_true.1 hp c hc
  cases h with
  | finish => exact Text.stops_nil
  | mark hc => exact Text.stops_cons.2 (hmarks _ (List.mem_cons_of_mem _ hc))
  | point => exact Text.stops_cons.2 (hmarks _ List.mem_cons_self)

/-- No mark belongs to a number before it. -/
theorem Boundary.endsNumber (h : Boundary rest) : EndsNumber rest := by
  have hsuffix : suffix rest = (false, rest) := by
    have hstops := h.stops (p := fun c => c = 'u' || c = 'U') (by decide)
    cases rest with
    | nil => rfl
    | cons c rest =>
      have hc : (c = 'u' || c = 'U') = false := hstops c rest rfl
      rw [suffix, hc, if_neg Bool.false_ne_true]
  have hexponent : exponent rest = ([], rest) := by
    have hstops := h.stops (p := fun c => c = 'e' || c = 'E') (by decide)
    match rest with
    | [] | [_] => rfl
    | c :: d :: rest =>
      have hc : (c = 'e' || c = 'E') = false := hstops c (d :: rest) rfl
      simp only [exponent, hc]
      rfl
  have hfraction : fraction rest = ([], rest) := by
    unfold fraction
    split
    · rename_i d text
      -- After a point comes a field, which no digit starts.
      have hd : isDigit d = false := by
        cases h with
        | mark hc => exact absurd hc (by decide)
        | point hdigit => exact hdigit d text rfl
      rw [hd, if_neg Bool.false_ne_true]
    · rfl
  exact ⟨h.stops (by decide), hfraction, hexponent, hsuffix⟩

/-- A text is read as tokens of some kinds, whatever comes after a boundary behind it. -/
def Spells (s : List Char) (ks : List Kind) : Prop :=
  ∀ ⦃rest ks'⦄, Boundary rest → Lexes rest ks' → Lexes (s ++ rest) (ks ++ ks')

/-! ## Words -/

/-- A text of the characters of a name, as keywords and names are. -/
def IsWord (s : List Char) : Prop :=
  ∃ c text, s = c :: text ∧ Unicode.isIdentifierStart c = true ∧
    ∀ d ∈ text, Unicode.isIdentifierContinue d = true

/-- The words of the language itself. -/
theorem isWord_of_all {c : Char} {text : List Char} (hc : Unicode.isIdentifierStart c = true)
    (htext : text.all Unicode.isIdentifierContinue = true) : IsWord (c :: text) :=
  ⟨c, text, rfl, hc, List.all_eq_true.1 htext⟩

/-- No character of a name after the first is a quote, so that none starts a raw string. -/
theorem isQuote_of_isIdentifierContinue (h : Unicode.isIdentifierContinue c = true) :
    isQuote c = false := by
  by_contra hquote
  rw [Bool.not_eq_false, isQuote, Bool.or_eq_true, beq_iff_eq, beq_iff_eq] at hquote
  rcases hquote with rfl | rfl <;> exact absurd h (by decide)

/-- A word is read as what it stands for, as long as no further character of a name and no quote
comes after it. -/
theorem lexes_word (hword : IsWord s) (hcontinue : Text.Stops Unicode.isIdentifierContinue rest)
    (hquote : Text.Stops isQuote rest) (h : Lexes rest ks) :
    Lexes (s ++ rest) (wordKind (String.ofList s) :: ks) := by
  obtain ⟨c, text, rfl, hstart, htext⟩ := hword
  -- A quote after an r would start a raw string.
  have hnext : Text.Stops isQuote (text ++ rest) := by
    cases text with
    | nil => exact hquote
    | cons d text =>
      exact Text.stops_cons.2 (isQuote_of_isIdentifierContinue (htext d List.mem_cons_self))
  have htoken : token c (text ++ rest) = (.ok (wordKind (String.ofList (c :: text))), rest) := by
    rw [token_eq_tokenAt (.inr hnext) (.inl (ne_of_class hstart (by decide)))]
    unfold token.tokenAt
    rw [if_pos hstart, Text.takeWhile_append_of_stops htext hcontinue,
      Text.dropWhile_append_of_stops htext hcontinue]
  exact lexes_token (isLayout_of_class hstart (by decide))
    (.inl (ne_of_class hstart (by decide))) htoken h

/-- A word spells the one token that it names. -/
theorem spells_word (hword : IsWord s) : Spells s [wordKind (String.ofList s)] :=
  fun _ _ hrest h => lexes_word hword (hrest.stops (by decide)) (hrest.stops (by decide)) h

/-- A name is read as that name. -/
theorem spells_name (h : IsName name) : Spells name.toList [.ident name] := by
  have hspells := spells_word h.1
  rw [String.ofList_toList, h.2] at hspells
  exact hspells

/-! ## Strings -/

/-- Two hexadecimal digits give back every character that is written with them. -/
theorem hexDigits_two {n : Nat} (h : n < 160) :
    ∃ a b, Text.hexDigits 2 n = [a, b] ∧ isHexDigit a = true ∧ isHexDigit b = true ∧
      ofDigits 16 [a, b] = n := by
  have hall : ∀ n < 160, (Text.hexDigits 2 n).length = 2 ∧
      (Text.hexDigits 2 n).all isHexDigit = true ∧ ofDigits 16 (Text.hexDigits 2 n) = n := by
    decide +kernel
  obtain ⟨hlength, hhex, hvalue⟩ := hall n h
  match hdigits : Text.hexDigits 2 n, hlength with
  | [a, b], _ =>
    rw [hdigits] at hhex hvalue
    simp only [List.all_cons, List.all_nil, Bool.and_true, Bool.and_eq_true] at hhex
    exact ⟨a, b, rfl, hhex.1, hhex.2, hvalue⟩

/-- The controls end below 160, so two digits are enough for the code of one. -/
theorem toNat_lt_of_isControl (h : Unicode.isControl c = true) : c.toNat < 160 := by
  simp only [Unicode.isControl, Bool.or_eq_true, Bool.and_eq_true, decide_eq_true_eq] at h
  omega

/-- An escape of a control is read as that control. -/
theorem escape_control (h : Unicode.isControl c = true) (rest : List Char) :
    escape ('x' :: (Text.hexDigits 2 c.toNat ++ rest)) = (.ok c, rest) := by
  obtain ⟨a, b, hab, ha, hb, hvalue⟩ := hexDigits_two (toNat_lt_of_isControl h)
  have hvalid : c.toNat.isValidChar := c.valid
  have hchar : char? c.toNat = some c := by
    rw [char?, if_pos hvalid, Char.ofNat_toNat]
  have hsimple : simpleEscape? 'x' = none := rfl
  rw [hab]
  simp only [escape, hsimple, escapeWidth?, List.cons_append, List.nil_append,
    List.take_succ_cons, List.take_zero, List.takeWhile_cons, ha, hb, if_true, List.takeWhile_nil,
    List.length_cons, List.length_nil, List.drop_succ_cons, List.drop_zero, hvalue, hchar]

/-- An escape puts its character to the string. -/
theorem stringFrom_escape {after : List Char} (read : List Char)
    (h : escape rest = (.ok c, after)) :
    stringFrom '"' false read ('\\' :: rest) = stringFrom '"' false (c :: read) after := by
  rw [stringFrom, if_neg (by decide), if_neg (by decide), if_pos (by decide)]
  split
  · rename_i d after' heq
    rw [h, Prod.mk.injEq, Except.ok.injEq] at heq
    rw [heq.1, heq.2]
  · rename_i fault after' heq
    rw [h, Prod.mk.injEq] at heq
    cases heq.1

/-- A character of a string is read from what is written for it. -/
theorem stringFrom_quoteChar (c : Char) (read rest : List Char) :
    stringFrom '"' false read (Text.quoteChar c ++ rest) =
      stringFrom '"' false (c :: read) rest := by
  unfold Text.quoteChar
  split_ifs with hquote hbackslash hfeed hreturn htab hcontrol
  · subst hquote
    exact stringFrom_escape read rfl
  · subst hbackslash
    exact stringFrom_escape read rfl
  · subst hfeed
    exact stringFrom_escape read rfl
  · subst hreturn
    exact stringFrom_escape read rfl
  · subst htab
    exact stringFrom_escape read rfl
  · exact stringFrom_escape read (escape_control hcontrol rest)
  · -- A character that stands for itself is neither the quote nor the start of an escape.
    rw [List.singleton_append, stringFrom, if_neg hfeed, if_neg hquote,
      decide_eq_false hbackslash, Bool.false_and, if_neg Bool.false_ne_true]

/-- The quoted characters of a text are read back, up to the quote that closes it. -/
theorem stringFrom_quote (text read rest : List Char) :
    stringFrom '"' false read (text.flatMap Text.quoteChar ++ '"' :: rest) =
      (.ok (read.reverse ++ text), rest) := by
  induction text generalizing read with
  | nil =>
    rw [List.flatMap_nil, List.nil_append, stringFrom, if_neg (by decide), if_pos rfl,
      List.append_nil]
  | cons c text ih =>
    rw [List.flatMap_cons, List.append_assoc, stringFrom_quoteChar, ih, List.reverse_cons,
      List.append_assoc, List.singleton_append]

/-- A quoted text as its opening quote and what follows it. -/
theorem quote_append (text : String) (rest : List Char) :
    (Text.quote text).toList ++ rest =
      '"' :: (text.toList.flatMap Text.quoteChar ++ '"' :: rest) := by
  rw [Text.quote, String.toList_ofList]
  simp

/-- The token of a quoted text ends at its closing quote, whatever comes after it. -/
theorem token_quote (text : String) (rest : List Char) :
    token '"' (text.toList.flatMap Text.quoteChar ++ '"' :: rest) =
      (.ok (.literal (.string text)), rest) := by
  have hstring : string '"' false (text.toList.flatMap Text.quoteChar ++ '"' :: rest) =
      (.ok (.literal (.string text)), rest) := by
    unfold string
    rw [stringFrom_quote]
    simp [Except.map]
  rw [← hstring]
  exact token_eq_tokenAt (.inl (by decide)) (.inl (by decide))

/-- A quoted text is read as that text. -/
theorem spells_quote (text : String) :
    Spells (Text.quote text).toList [.literal (.string text)] := by
  intro rest ks hrest h
  rw [quote_append]
  exact lexes_token (by decide) (.inl (by decide)) (token_quote text rest) h

/-! ## Numbers -/

/-- No name starts with a digit. -/
theorem isIdentifierStart_of_isDigit (h : isDigit c = true) :
    Unicode.isIdentifierStart c = false := by
  have hle : c.toNat ≤ '9'.toNat := by
    rw [isDigit, Bool.and_eq_true, decide_eq_true_eq, decide_eq_true_eq] at h
    exact h.2
  -- Digits come before all the ranges of characters that start a name.
  have hbelow : Unicode.xidStart.contain c.toNat = false := by
    have hfirst : ¬ 0x41 ≤ c.toNat := by
      have hnine : '9'.toNat = 0x39 := rfl
      omega
    unfold Unicode.xidStart Unicode.Ranges.contain
    rw [decide_eq_false hfirst, Bool.false_and]
  rw [Unicode.isIdentifierStart, hbelow, Bool.or_false, beq_eq_false_iff_ne]
  exact ne_of_class h (by decide)

/-- A text that starts with a name does not start with a digit. -/
theorem stops_isDigit_of_isName (h : IsName name) (s : List Char) :
    Text.Stops isDigit (name.toList ++ s) := by
  obtain ⟨⟨c, text, hlist, hstart, -⟩, -⟩ := h
  rw [hlist]
  refine Text.stops_cons.2 ?_
  by_contra hdigit
  rw [Bool.not_eq_false] at hdigit
  rw [isIdentifierStart_of_isDigit hdigit] at hstart
  cases hstart

/-- Digits are left to the scanner of decimal numbers, unless the second character makes them
hexadecimal. -/
theorem token_number {digits more : List Char} (hc : isDigit c = true) (hdigits : IsNumeral digits)
    (hmore : Text.Stops (fun d => d = 'x' || d = 'X') more) :
    token c (digits ++ more) = decimalNumber (c :: (digits ++ more)) := by
  -- An x after the first digit would start a hexadecimal number.
  have hnext : Text.Stops (fun d => d = 'x' || d = 'X') (digits ++ more) := by
    cases digits with
    | nil => exact hmore
    | cons d digits =>
      have hd := (isNumeral_cons.1 hdigits).1
      refine Text.stops_cons.2 ?_
      rw [decide_eq_false (ne_of_class hd (by decide)),
        decide_eq_false (ne_of_class hd (by decide)), Bool.or_self]
  rw [token_eq_tokenAt (.inl ⟨ne_of_class hc (by decide), ne_of_class hc (by decide)⟩)
    (.inr hnext)]
  unfold token.tokenAt
  rw [isIdentifierStart_of_isDigit hc, if_neg Bool.false_ne_true, if_pos hc]

/-- A number is read where the scanner of decimal numbers reads it, unless its second character
makes it a hexadecimal one. -/
theorem lexes_number {whole more : List Char} (hne : whole ≠ []) (hwhole : IsNumeral whole)
    (hmore : Text.Stops (fun d => d = 'x' || d = 'X') more)
    (hnumber : decimalNumber (whole ++ more) = (.ok k, rest)) (h : Lexes rest ks) :
    Lexes (whole ++ more) (k :: ks) := by
  obtain ⟨c, digits, rfl⟩ := List.exists_cons_of_ne_nil hne
  obtain ⟨hc, hdigits⟩ := isNumeral_cons.1 hwhole
  have htoken : token c (digits ++ more) = (.ok k, rest) := by
    rw [token_number hc hdigits hmore]
    exact hnumber
  exact lexes_token (isLayout_of_class hc (by decide)) (.inl (ne_of_class hc (by decide))) htoken h

/-- The digits of an int are read as that int. -/
theorem spells_int {n : Nat} {i : Int64} (hi : int64? n = some i) :
    Spells (toDigits n) [.literal (.int i)] := by
  intro rest ks hrest h
  have hends := hrest.endsNumber
  obtain ⟨shown, hnumber⟩ :=
    decimalNumber_toDigits n hends.digit hends.fraction hends.exponent hends.suffix
  rw [integer?, if_neg Bool.false_ne_true, hi] at hnumber
  exact lexes_number (toDigits_ne_nil n) (isNumeral_toDigits n) (hrest.stops (by decide)) hnumber h

/-- The digits of a uint with its suffix are read as that uint. -/
theorem spells_uint {n : Nat} {u : UInt64} (hu : uint64? n = some u) :
    Spells (toDigits n ++ ['u']) [.literal (.uint u)] := by
  intro rest ks hrest h
  have hdigit : Text.Stops isDigit ('u' :: rest) := Text.stops_cons.2 (by decide)
  have hexponent : exponent ('u' :: rest) = ([], 'u' :: rest) := by cases rest <;> rfl
  have hsuffix : suffix ('u' :: rest) = (true, rest) := rfl
  obtain ⟨shown, hnumber⟩ := decimalNumber_toDigits n hdigit rfl hexponent hsuffix
  rw [integer?, if_pos rfl, hu] at hnumber
  rw [List.append_assoc]
  exact lexes_number (toDigits_ne_nil n) (isNumeral_toDigits n) (Text.stops_cons.2 (by decide))
    hnumber h

/-- The text of a finite double that is not negative is read as that double. -/
theorem spells_double {x : Double} (hfinite : x.isFinite = true) (hsign : x.negative = false) :
    Spells (x.text .source).toList [.literal (.double x)] := by
  intro rest ks hrest h
  obtain ⟨whole, fraction, power, htext, hnumber⟩ := Double.exists_text hfinite hsign
  have hread := Double.decimalNumber_eq hnumber hfinite hsign hrest.endsNumber
  rw [htext]
  rw [numberText, List.append_assoc] at hread ⊢
  -- Behind the digits comes a point, an exponent or what does not belong to a number.
  refine lexes_number hnumber.ne_nil hnumber.numeral ?_ hread h
  rw [List.append_assoc]
  cases fraction with
  | cons d digits => exact Text.stops_cons.2 (by decide)
  | nil =>
    cases power with
    | some e => exact Text.stops_cons.2 (by decide)
    | none => exact hrest.stops (by decide)

/-! ## Pieces put together -/

/-- A text that is read as tokens of some kinds, whatever comes after it. -/
def Passes (s : List Char) (ks : List Kind) : Prop :=
  ∀ ⦃rest ks'⦄, Lexes rest ks' → Lexes (s ++ rest) (ks ++ ks')

variable {s' : List Char} {ks' : List Kind}

/-- No characters spell no tokens. -/
theorem passes_nil : Passes [] [] := fun _ _ h => h

/-- A space spells no token. -/
theorem passes_space : Passes [' '] [] := fun _ _ h => lexes_space h

/-- A symbol that nothing makes another. -/
theorem passes_symbol (sym : Symbol) (s : List Char) (hs : sym.text.toList = s)
    (halone : ∀ rest, Alone sym rest) : Passes s [.symbol sym] := by
  intro rest ks h
  rw [← hs]
  exact lexes_symbol sym (halone rest) h

/-- A symbol between two spaces. -/
theorem passes_spaced_symbol (sym : Symbol) (s : List Char) (hs : sym.text.toList = s) :
    Passes (' ' :: (s ++ [' '])) [.symbol sym] := by
  intro rest ks h
  have halone : Alone sym (' ' :: rest) := by
    cases sym <;> simp [Alone]
  rw [← hs, List.cons_append, List.append_assoc]
  exact lexes_space (lexes_symbol sym halone (lexes_space h))

/-- Texts that are read whatever comes after them are read after each other. -/
theorem Passes.append (h : Passes s ks) (h' : Passes s' ks') : Passes (s ++ s') (ks ++ ks') := by
  intro rest ks₀ hrest
  rw [List.append_assoc, List.append_assoc]
  exact h (h' hrest)

/-- A text that is read whatever comes after it is read before one that is read for itself. -/
theorem Passes.spells (h : Passes s ks) (h' : Spells s' ks') : Spells (s ++ s') (ks ++ ks') := by
  intro rest ks₀ hrest hlexes
  rw [List.append_assoc, List.append_assoc]
  exact h (h' hrest hlexes)

/-- What is read whatever comes after it spells the same tokens. -/
theorem Passes.toSpells (h : Passes s ks) : Spells s ks := fun _ _ _ hlexes => h hlexes

/-- A piece before a text that starts with a mark. -/
theorem Spells.append (h : Spells s ks) (hc : c ∈ marks) (h' : Spells (c :: s') ks') :
    Spells (s ++ c :: s') (ks ++ ks') := by
  intro rest ks₀ hrest hlexes
  rw [List.append_assoc, List.append_assoc]
  exact h (.mark hc) (h' hrest hlexes)

/-- A piece before a point and a name. -/
theorem Spells.member (h : Spells s ks) (hname : IsName name) :
    Spells (s ++ '.' :: name.toList) (ks ++ [.symbol .dot, .ident name]) := by
  intro rest ks₀ hrest hlexes
  rw [List.append_assoc, List.append_assoc]
  exact h (.point (stops_isDigit_of_isName hname rest))
    (lexes_symbol .dot trivial (spells_name hname hrest hlexes))

end Scan

end CelShell
