import CelShell.Proofs.Token.Spelling

/-!
# A token depends on its own characters

A scanner looks at what follows a token to see where the token ends, and at nothing else of it. So
the characters that a token took off one text are read as the same token in any text that goes on
with a boundary (`Scan.exists_spells_of_token`). Escapes and strings end by themselves and can be
followed by anything. A number is taken apart into its digits, fraction, exponent and suffix: each
of these ends where the next one starts, or where none of those that may still come starts.
-/

namespace CelShell

open Number

namespace Text

variable {p : Char → Bool} {cs taken more : List Char}

/-- A text is empty or starts with one of some characters. -/
def StartsIn (cs s : List Char) : Prop := ∀ c, s.head? = some c → c ∈ cs

/-- The empty text starts in any set. -/
theorem startsIn_nil : StartsIn cs [] := nofun

/-- A text starts in a set that holds its first character. -/
theorem startsIn_cons {c : Char} (h : c ∈ cs) : StartsIn cs (c :: taken) := by
  intro d hd
  rwa [← Option.some.inj hd]

/-- What stops where it starts also stops before what it starts with. -/
theorem Stops.append (h : Stops p more) (htaken : StartsIn cs taken)
    (hcs : cs.all (fun c => !p c) = true) : Stops p (taken ++ more) := by
  cases taken with
  | nil => exact h
  | cons c taken => exact stops_cons.2 (by simpa using List.all_eq_true.1 hcs c (htaken c rfl))

end Text

namespace Scan

variable {c d : Char} {s text rest : List Char} {k : Kind} {raw unsigned : Bool}

/-! ## Strings -/

/-- What an escape took is the same escape before anything. -/
theorem exists_escape (h : escape s = (.ok d, rest)) :
    ∃ taken, s = taken ++ rest ∧ ∀ more, escape (taken ++ more) = (.ok d, more) := by
  cases s with
  | nil => cases h
  | cons c s =>
    rw [escape] at h
    split at h
    · next hsimple =>
      obtain ⟨rfl, rfl⟩ : _ = d ∧ s = rest := by simpa using h
      exact ⟨[c], rfl, fun more => by rw [List.singleton_append, escape, hsimple]⟩
    · next hsimple =>
      split at h
      · cases h
      · next width hwidth =>
        dsimp only at h
        generalize hdigits : (s.take width).takeWhile isHexDigit = digits at h
        by_cases hlength : digits.length = width
        · rw [if_pos hlength] at h
          split at h
          · next hchar =>
            obtain ⟨rfl, rfl⟩ : _ = d ∧ s.drop digits.length = rest := by simpa using h
            -- All the digits are there, so they are what the escape takes after its letter.
            have hprefix : digits <+: s.take width := hdigits ▸ List.takeWhile_prefix _
            have htake : digits = s.take width :=
              hprefix.eq_of_length_le (by rw [hlength]; exact List.length_take_le _ _)
            have hhex : digits.takeWhile isHexDigit = digits := by
              rw [← htake] at hdigits
              exact hdigits
            refine ⟨c :: digits, ?_, fun more => ?_⟩
            · rw [List.cons_append, hlength, htake, List.take_append_drop]
            · rw [List.cons_append, escape]
              simp only [hsimple, hwidth, List.take_left' hlength, hhex, if_pos hlength, hchar,
                List.drop_left]
          · cases h
        · rw [if_neg hlength] at h
          cases h

/-- What a string took up to its closing quote is the same string before anything. -/
theorem exists_stringFrom {quote : Char} {read : List Char}
    (h : stringFrom quote raw read s = (.ok text, rest)) :
    ∃ taken, s = taken ++ rest ∧
      ∀ more, stringFrom quote raw read (taken ++ more) = (.ok text, more) := by
  fun_induction stringFrom quote raw read s with
  -- Without its closing quote, with a line feed in it or with a wrong escape there is no string.
  | case1 | case2 | case5 => cases h
  | case3 read rest' hfeed =>
    obtain ⟨rfl, rfl⟩ : read.reverse = text ∧ rest' = rest := by simpa using h
    refine ⟨[quote], rfl, fun more => ?_⟩
    rw [List.singleton_append, stringFrom, if_neg hfeed, if_pos rfl]
  | case4 read c rest' hfeed hquote hescape d after hread ih =>
    obtain ⟨taken, rfl, htaken⟩ := ih h
    obtain ⟨sequence, rfl, hsequence⟩ := exists_escape hread
    refine ⟨c :: (sequence ++ taken), by simp, fun more => ?_⟩
    rw [List.cons_append, List.append_assoc, stringFrom, if_neg hfeed, if_neg hquote,
      if_pos hescape]
    split
    · next heq =>
      rw [hsequence] at heq
      cases heq
      exact htaken more
    · next heq =>
      rw [hsequence] at heq
      cases heq
  | case6 read c rest' hfeed hquote hescape ih =>
    obtain ⟨taken, rfl, htaken⟩ := ih h
    refine ⟨c :: taken, rfl, fun more => ?_⟩
    rw [List.cons_append, stringFrom, if_neg hfeed, if_neg hquote, if_neg hescape]
    exact htaken more

/-- A string is read up to its closing quote, whatever comes behind that. -/
theorem exists_string {quote : Char} (h : string quote raw s = (.ok k, rest)) :
    ∃ taken, s = taken ++ rest ∧ ∀ more, string quote raw (taken ++ more) = (.ok k, more) := by
  unfold string at h
  dsimp only at h
  cases hread : stringFrom quote raw [] s with
  | mk read after =>
    rw [hread] at h
    cases read with
    | error fault => cases h
    | ok text =>
      -- The string is made of what was read up to the quote.
      obtain ⟨taken, rfl, htaken⟩ := exists_stringFrom hread
      obtain ⟨hk, rfl⟩ := Prod.mk.inj h
      refine ⟨taken, rfl, fun more => ?_⟩
      unfold string
      rw [htaken, ← hk]

/-! ## Numbers -/

/-- A text that starts with no point has no fraction. -/
theorem fraction_append_of_startsIn {cs taken more : List Char} (htaken : Text.StartsIn cs taken)
    (hcs : '.' ∉ cs) (h : fraction more = ([], more)) :
    fraction (taken ++ more) = ([], taken ++ more) := by
  cases taken with
  | nil => exact h
  | cons c taken =>
    rw [List.cons_append]
    unfold fraction
    split
    · next heq => exact absurd ((List.cons.inj heq).1 ▸ htaken c rfl) hcs
    · rfl

/-- A text that starts with no mark of an exponent has none. -/
theorem exponent_append_of_startsIn {cs taken more : List Char} (htaken : Text.StartsIn cs taken)
    (hcs : cs.all (fun c => !(c = 'e' || c = 'E')) = true) (h : exponent more = ([], more)) :
    exponent (taken ++ more) = ([], taken ++ more) := by
  cases taken with
  | nil => exact h
  | cons c taken =>
    -- The first character is none of the two marks.
    have hc : (c = 'e' || c = 'E') = false := by
      simpa using List.all_eq_true.1 hcs c (htaken c rfl)
    rw [List.cons_append]
    unfold exponent
    split
    · next heq =>
      obtain ⟨rfl, -⟩ := List.cons.inj heq
      rw [hc, if_neg Bool.false_ne_true]
    · rfl

/-- What a fraction took is the same fraction before what does not go on with it. -/
theorem exists_fraction {point : List Char} (h : fraction s = (point, rest)) :
    s = point ++ rest ∧ Text.StartsIn ['.'] point ∧
      ∀ more, Text.Stops isDigit more → fraction more = ([], more) →
        fraction (point ++ more) = (point, more) := by
  -- Where no digit follows a point there is no fraction, and nothing is taken.
  have hnone : ([], s) = (point, rest) → s = point ++ rest ∧ Text.StartsIn ['.'] point ∧
      ∀ more, Text.Stops isDigit more → fraction more = ([], more) →
        fraction (point ++ more) = (point, more) := by
    rintro ⟨⟩
    exact ⟨rfl, Text.startsIn_nil, fun _ _ hmore => hmore⟩
  unfold fraction at h
  split at h
  · next d digits =>
    split at h
    · next hd =>
      obtain ⟨rfl, rfl⟩ := Prod.mk.inj h
      have hdigits : ∀ c ∈ digits.takeWhile isDigit, isDigit c = true :=
        fun c hc => List.mem_takeWhile_imp hc
      refine ⟨?_, Text.startsIn_cons (by decide), fun more hmore _ => ?_⟩
      · rw [List.cons_append, List.cons_append, List.takeWhile_append_dropWhile]
      · rw [List.cons_append, List.cons_append, fraction, if_pos hd,
          Text.takeWhile_append_of_stops hdigits hmore,
          Text.dropWhile_append_of_stops hdigits hmore]
    · exact hnone h
  · exact hnone h

/-- What an exponent took is the same exponent before what does not go on with it. -/
theorem exists_exponent {power : List Char} (h : exponent s = (power, rest)) :
    ∃ taken, s = taken ++ rest ∧ (power = [] → taken = []) ∧
      Text.StartsIn ['e', 'E'] taken ∧
      ∀ more, Text.Stops isDigit more → exponent more = ([], more) →
        exponent (taken ++ more) = (power, more) := by
  -- Where no digit follows the mark or its sign there is no exponent, and nothing is taken.
  have hnone : ([], s) = (power, rest) → ∃ taken, s = taken ++ rest ∧ (power = [] → taken = []) ∧
      Text.StartsIn ['e', 'E'] taken ∧
      ∀ more, Text.Stops isDigit more → exponent more = ([], more) →
        exponent (taken ++ more) = (power, more) := by
    rintro ⟨⟩
    exact ⟨[], rfl, fun _ => rfl, Text.startsIn_nil, fun _ _ hmore => hmore⟩
  rcases s with _ | ⟨e, _ | ⟨d, digits⟩⟩
  · exact hnone h
  · exact hnone h
  by_cases he : (e = 'e' || e = 'E') = true
  · have hmark : e ∈ ['e', 'E'] := by simpa using he
    have htake : ∀ c ∈ digits.takeWhile isDigit, isDigit c = true :=
      fun c hc => List.mem_takeWhile_imp hc
    by_cases hd : isDigit d = true
    · simp only [exponent, he, hd, if_true] at h
      obtain ⟨rfl, rfl⟩ := Prod.mk.inj h
      refine ⟨e :: d :: digits.takeWhile isDigit, by simp, by simp, Text.startsIn_cons hmark,
        fun more hmore _ => ?_⟩
      simp only [List.cons_append, exponent, he, hd, if_true,
        Text.takeWhile_append_of_stops htake hmore, Text.dropWhile_append_of_stops htake hmore]
    · by_cases hsign : (d = '+' || d = '-') = true
      · rcases digits with _ | ⟨first, digits⟩
        · simp only [exponent, he, hd, hsign, if_true] at h
          exact hnone h
        by_cases hfirst : isDigit first = true
        · simp only [exponent, he, hd, hsign, hfirst, if_true] at h
          obtain ⟨rfl, rfl⟩ := Prod.mk.inj h
          refine ⟨e :: d :: (first :: digits).takeWhile isDigit, by simp, by simp,
            Text.startsIn_cons hmark, fun more hmore _ => ?_⟩
          -- The digits end where the text behind begins.
          have htakeMore := Text.takeWhile_append_of_stops htake hmore
          have hdropMore := Text.dropWhile_append_of_stops htake hmore
          rw [List.takeWhile_cons_of_pos hfirst, List.cons_append] at htakeMore hdropMore
          rw [List.takeWhile_cons_of_pos hfirst] at htakeMore
          simp only [List.takeWhile_cons_of_pos hfirst, List.cons_append, exponent, he, hd,
            hsign, hfirst, if_true, Bool.false_eq_true, if_false, hdropMore,
            (List.cons.inj htakeMore).2]
        · simp only [exponent, he, hd, hsign, hfirst, if_true] at h
          exact hnone h
      · simp only [exponent, he, hd, hsign, if_true] at h
        exact hnone h
  · simp only [exponent, he] at h
    exact hnone h

/-- What a suffix took is the same suffix before what is none. -/
theorem exists_suffix (h : suffix s = (unsigned, rest)) :
    ∃ taken, s = taken ++ rest ∧ Text.StartsIn ['u', 'U'] taken ∧
      ∀ more, suffix more = (false, more) → suffix (taken ++ more) = (unsigned, more) := by
  -- Any other character is no suffix, and nothing is taken.
  have hnone : (false, s) = (unsigned, rest) →
      ∃ taken, s = taken ++ rest ∧ Text.StartsIn ['u', 'U'] taken ∧
        ∀ more, suffix more = (false, more) → suffix (taken ++ more) = (unsigned, more) := by
    rintro ⟨⟩
    exact ⟨[], rfl, Text.startsIn_nil, fun _ hmore => hmore⟩
  cases s with
  | nil => exact hnone h
  | cons c s =>
    rw [suffix] at h
    split at h
    · next hc =>
      obtain ⟨rfl, rfl⟩ := Prod.mk.inj h
      refine ⟨[c], rfl, Text.startsIn_cons (by simpa using hc), fun more _ => ?_⟩
      rw [List.singleton_append, suffix, if_pos hc]
    · exact hnone h

/-- What a hexadecimal number took is the same number before a boundary. -/
theorem exists_hexNumber (h : hexNumber s = (.ok k, rest)) :
    ∃ taken, s = taken ++ rest ∧
      ∀ more, Boundary more → hexNumber (taken ++ more) = (.ok k, more) := by
  unfold hexNumber at h
  cases hsuffix : suffix (s.dropWhile isHexDigit) with
  | mk unsigned after =>
    rw [hsuffix] at h
    obtain ⟨hk, rfl⟩ := Prod.mk.inj h
    obtain ⟨taken, htaken, hhead, hmore⟩ := exists_suffix hsuffix
    have hdigits : ∀ c ∈ s.takeWhile isHexDigit, isHexDigit c = true :=
      fun c hc => List.mem_takeWhile_imp hc
    refine ⟨s.takeWhile isHexDigit ++ taken, ?_, fun more hboundary => ?_⟩
    · rw [List.append_assoc, ← htaken, List.takeWhile_append_dropWhile]
    · -- No suffix is a digit of the number, and nor is what stands behind a boundary.
      have hstops : Text.Stops isHexDigit (taken ++ more) :=
        (hboundary.stops (by decide)).append hhead (by decide)
      unfold hexNumber
      rw [List.append_assoc, Text.takeWhile_append_of_stops hdigits hstops,
        Text.dropWhile_append_of_stops hdigits hstops, hmore more hboundary.endsNumber.suffix]
      exact Prod.ext hk rfl

/-- What a decimal number took after its first digits is the same number before a boundary. -/
theorem exists_decimalNumber (h : decimalNumber s = (.ok k, rest)) :
    ∃ taken, s = s.takeWhile isDigit ++ (taken ++ rest) ∧
      ∀ more, Boundary more → Text.Stops (fun d => d = 'x' || d = 'X') (taken ++ more) ∧
        decimalNumber (s.takeWhile isDigit ++ (taken ++ more)) = (.ok k, more) := by
  have hwhole : IsNumeral (s.takeWhile isDigit) := fun c hc => List.mem_takeWhile_imp hc
  unfold decimalNumber at h
  cases hfraction : fraction (s.dropWhile isDigit) with
  | mk point afterPoint =>
    cases hexponent : exponent afterPoint with
    | mk power afterPower =>
      cases hsuffix : suffix afterPower with
      | mk unsigned after =>
        simp only [hfraction, hexponent, hsuffix] at h
        obtain ⟨hpoint, hpointHead, hpointMore⟩ := exists_fraction hfraction
        obtain ⟨mark, hmark, hmarkNil, hmarkHead, hmarkMore⟩ := exists_exponent hexponent
        obtain ⟨sign, hsign, hsignHead, hsignMore⟩ := exists_suffix hsuffix
        split at h
        · -- Neither a fraction nor an exponent: a suffix follows the digits.
          next hinteger =>
          obtain ⟨rfl, rfl⟩ : point = [] ∧ power = [] := by simpa using hinteger
          obtain rfl := hmarkNil rfl
          rw [List.nil_append] at hpoint hmark
          subst hpoint hmark
          obtain ⟨hk, rfl⟩ := Prod.mk.inj h
          refine ⟨sign, by rw [← hsign, List.takeWhile_append_dropWhile], fun more hboundary => ?_⟩
          have hends := hboundary.endsNumber
          have hstops : Text.Stops isDigit (sign ++ more) :=
            hends.digit.append hsignHead (by decide)
          have hnoPoint := fraction_append_of_startsIn hsignHead (by decide) hends.fraction
          have hnoPower := exponent_append_of_startsIn hsignHead (by decide) hends.exponent
          refine ⟨(hboundary.stops (by decide)).append hsignHead (by decide), ?_⟩
          rw [List.append_nil, List.append_nil] at hk
          rw [decimalNumber_of_integer hwhole hstops hnoPoint hnoPower
            (hsignMore more hends.suffix), hk]
        · -- A fraction, an exponent or both: each part stops the one before it.
          next hdouble =>
          obtain ⟨hk, rfl⟩ := Prod.mk.inj h
          refine ⟨point ++ mark, ?_, fun more hboundary => ?_⟩
          · rw [List.append_assoc, ← hmark, ← hpoint, List.takeWhile_append_dropWhile]
          · have hends := hboundary.endsNumber
            have hafter : Text.Stops isDigit (mark ++ more) :=
              hends.digit.append hmarkHead (by decide)
            have hstops : Text.Stops isDigit (point ++ (mark ++ more)) :=
              hafter.append hpointHead (by decide)
            have hnoPoint := fraction_append_of_startsIn hmarkHead (by decide) hends.fraction
            have hnoHex : Text.Stops (fun d => d = 'x' || d = 'X') (mark ++ more) :=
              (hboundary.stops (by decide)).append hmarkHead (by decide)
            rw [List.append_assoc]
            refine ⟨hnoHex.append hpointHead (by decide), ?_⟩
            rw [decimalNumber_of_double hwhole hstops (hpointMore _ hafter hnoPoint)
              (hmarkMore more hends.digit hends.exponent) (Bool.eq_false_iff.2 hdouble), hk]

/-! ## Symbols -/

/-- What a symbol took is how it is written. -/
theorem eq_append_of_symbol {sym : Symbol} (h : symbol s = some (sym, rest)) :
    s = sym.text.toList ++ rest := by
  unfold symbol at h
  split at h <;> cases h <;> rfl

/-- Before a boundary no symbol is the beginning of another one. -/
theorem Boundary.alone (h : Boundary rest) (sym : Symbol) : Alone sym rest := by
  have hstops {d : Char} (hd : ('.' :: marks).all (fun c => !(c == d)) = true) :
      ∀ t, rest ≠ d :: t := by
    rintro t rfl
    have hstop := h.stops (p := (· == d)) hd d t rfl
    simp at hstop
  cases sym
  case less | greater | not => exact hstops (by decide)
  case slash => exact hstops (by decide)
  all_goals trivial

/-! ## Tokens -/

/-- The characters that a word took off a text are read as that word. -/
theorem spells_takeWhile (hc : Unicode.isIdentifierStart c = true) (text : List Char) :
    Spells (c :: text.takeWhile Unicode.isIdentifierContinue)
      [wordKind (String.ofList (c :: text.takeWhile Unicode.isIdentifierContinue))] :=
  spells_word ⟨c, _, rfl, hc, fun _ hd => List.mem_takeWhile_imp hd⟩

/-- What a token that is neither a raw string nor a hexadecimal number took. -/
theorem exists_spells_of_tokenAt (h : token.tokenAt c text = (.ok k, rest)) :
    ∃ taken, c :: text = taken ++ rest ∧ taken ≠ [] ∧ Spells taken [k] := by
  unfold token.tokenAt at h
  split at h
  · next hstart =>
    obtain ⟨hk, rfl⟩ := Prod.mk.inj h
    obtain rfl := Except.ok.inj hk
    refine ⟨_, ?_, List.cons_ne_nil _ _, spells_takeWhile hstart text⟩
    rw [List.cons_append, List.takeWhile_append_dropWhile]
  · next hstart =>
    split at h
    · next hdigit =>
      obtain ⟨taken, htaken, hmore⟩ := exists_decimalNumber h
      have hne : (c :: text).takeWhile isDigit ≠ [] := by
        rw [List.takeWhile_cons_of_pos hdigit]
        exact List.cons_ne_nil _ _
      refine ⟨(c :: text).takeWhile isDigit ++ taken, ?_, ?_, fun more ks hboundary hlexes => ?_⟩
      · rw [List.append_assoc]
        exact htaken
      · exact List.append_ne_nil_of_left_ne_nil hne _
      · obtain ⟨hhex, hnumber⟩ := hmore more hboundary
        rw [List.append_assoc]
        exact lexes_number hne (fun d hd => List.mem_takeWhile_imp hd) hhex hnumber hlexes
    · next hdigit =>
      split at h
      · next hquote =>
        obtain ⟨taken, rfl, hmore⟩ := exists_string h
        refine ⟨c :: taken, rfl, List.cons_ne_nil _ _, fun more ks _ hlexes => ?_⟩
        -- A quote begins no raw string and no hexadecimal number.
        have htoken : token c (taken ++ more) = (.ok k, more) := by
          rw [token_eq_tokenAt
            (.inl ⟨ne_of_class hquote (by decide), ne_of_class hquote (by decide)⟩)
            (.inl (ne_of_class hquote (by decide)))]
          unfold token.tokenAt
          rw [if_neg hstart, if_neg hdigit, if_pos hquote]
          exact hmore more
        exact lexes_token (isLayout_of_class hquote (by decide))
          (.inl (ne_of_class hquote (by decide))) htoken hlexes
      · split at h
        · next sym after hsymbol =>
          obtain ⟨hk, rfl⟩ := Prod.mk.inj h
          obtain rfl := Except.ok.inj hk
          refine ⟨sym.text.toList, eq_append_of_symbol hsymbol, ?_,
            fun more ks hboundary hlexes => ?_⟩
          · cases sym <;> decide
          · exact lexes_symbol sym (hboundary.alone sym) hlexes
        · cases h

/-- What a token took is never empty, and is read as the same token before a boundary. -/
theorem exists_spells_of_token (h : token c text = (.ok k, rest)) :
    ∃ taken, c :: text = taken ++ rest ∧ taken ≠ [] ∧ Spells taken [k] := by
  unfold token at h
  split at h
  · next q text =>
    split at h
    · next hraw =>
      obtain ⟨taken, rfl, hmore⟩ := exists_string h
      refine ⟨c :: q :: taken, rfl, List.cons_ne_nil _ _, fun more ks _ hlexes => ?_⟩
      have htoken : token c (q :: (taken ++ more)) = (.ok k, more) := by
        rw [token, if_pos hraw]
        exact hmore more
      -- The letter before the quote makes the string raw.
      have hc : c = 'r' ∨ c = 'R' := by
        rw [Bool.and_eq_true, Bool.or_eq_true, decide_eq_true_eq, decide_eq_true_eq] at hraw
        exact hraw.1
      rcases hc with rfl | rfl
      · exact lexes_token (by decide) (.inl (by decide)) htoken hlexes
      · exact lexes_token (by decide) (.inl (by decide)) htoken hlexes
    · next hraw =>
      split at h
      · next hhex =>
        obtain ⟨taken, rfl, hmore⟩ := exists_hexNumber h
        refine ⟨c :: q :: taken, rfl, List.cons_ne_nil _ _, fun more ks hboundary hlexes => ?_⟩
        have htoken : token c (q :: (taken ++ more)) = (.ok k, more) := by
          rw [token, if_neg hraw, if_pos hhex]
          exact hmore more hboundary
        -- The zero before the letter makes the number hexadecimal.
        have hc : c = '0' := by
          rw [Bool.and_eq_true, decide_eq_true_eq] at hhex
          exact hhex.1
        subst hc
        exact lexes_token (by decide) (.inl (by decide)) htoken hlexes
      · exact exists_spells_of_tokenAt h
  · exact exists_spells_of_tokenAt h

end Scan

end CelShell
