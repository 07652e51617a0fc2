import CelShell.Proofs.Token.Layout

/-!
# Quoted texts in front of other text

A quoted text says itself where it ends. Whatever comes after it, the first token is the literal of
the text, its span covers what `Text.quote` wrote, and reading goes on behind it
(`Token.list_quote_append`). A quoted text holds no control, so it stays on the line on which it is
printed.
-/

namespace CelShell

namespace Text

variable {c : Char}

/-- No hexadecimal digit is a control. -/
theorem isControl_of_isHexDigit (h : Number.isHexDigit c = true) :
    Unicode.isControl c = false := by
  -- The digits lie between the two ranges of controls.
  have hrange : '0'.toNat ≤ c.toNat ∧ c.toNat ≤ 'f'.toNat := by
    simp only [Number.isHexDigit, Number.isDigit, Bool.or_eq_true, Bool.and_eq_true,
      decide_eq_true_eq] at h
    rcases h with (⟨hlow, hhigh⟩ | ⟨hlow, hhigh⟩) | ⟨hlow, hhigh⟩
    · exact ⟨hlow, Nat.le_trans hhigh (by decide)⟩
    · exact ⟨Nat.le_trans (by decide) hlow, hhigh⟩
    · exact ⟨Nat.le_trans (by decide) hlow, Nat.le_trans hhigh (by decide)⟩
  have hzero : '0'.toNat = 0x30 := rfl
  have hf : 'f'.toNat = 0x66 := rfl
  rw [Unicode.isControl, decide_eq_false (by omega), decide_eq_false (by omega)]
  rfl

/-- Characters that were checked one by one are no controls. -/
theorem isControl_of_mem {plain : List Char} (h : c ∈ plain)
    (hplain : plain.all (fun c => !Unicode.isControl c) = true) : Unicode.isControl c = false := by
  rw [← Bool.not_eq_true']
  exact List.all_eq_true.1 hplain c h

/-- What is written for a character holds no control. -/
theorem isControl_of_mem_quoteChar {d : Char} (h : d ∈ quoteChar c) :
    Unicode.isControl d = false := by
  unfold quoteChar at h
  split_ifs at h with hquote hbackslash hfeed hreturn htab hcontrol
  · exact isControl_of_mem h (by decide)
  · exact isControl_of_mem h (by decide)
  · exact isControl_of_mem h (by decide)
  · exact isControl_of_mem h (by decide)
  · exact isControl_of_mem h (by decide)
  · -- The digits of the code follow the letter of the escape.
    obtain ⟨a, b, hdigits, ha, hb, -⟩ := Scan.hexDigits_two (Scan.toNat_lt_of_isControl hcontrol)
    rw [hdigits] at h
    simp only [List.mem_cons, List.not_mem_nil, or_false] at h
    rcases h with rfl | rfl | rfl | rfl
    · rfl
    · rfl
    · exact isControl_of_isHexDigit ha
    · exact isControl_of_isHexDigit hb
  · rw [List.mem_singleton] at h
    rw [h]
    exact Bool.eq_false_iff.2 hcontrol

/-- The quoted text of a string holds no control, since the controls are escaped. -/
theorem isControl_of_mem_quote {s : String} (h : c ∈ (quote s).toList) :
    Unicode.isControl c = false := by
  rw [quote, String.toList_ofList, List.mem_cons, List.mem_append, List.mem_flatMap,
    List.mem_singleton] at h
  rcases h with rfl | ⟨d, -, hd⟩ | rfl
  · rfl
  · exact isControl_of_mem_quoteChar hd
  · rfl

end Text

namespace Token

/-- The first token of a text that starts at a position, with the text behind it. There is none
where only layout is left. -/
def next? (p : Position) (s : List Char) : Option (Except LexError (Token × List Char)) :=
  match Scan.skipLayout false s with
  | [] => none
  | c :: text =>
    let start := positionBefore (c :: text) p s
    match Scan.token c text with
    | (.error fault, rest) => some (.error ⟨fault, ⟨start, positionBefore rest start (c :: text)⟩⟩)
    | (.ok kind, rest) =>
      some (.ok (⟨kind, ⟨start, positionBefore rest start (c :: text)⟩⟩, rest))

/-- The tokens of a text are read one after the other. -/
theorem listFrom_eq_next? (p : Position) (s : List Char) :
    listFrom p s = match next? p s with
      | none => .ok [⟨.eof, ⟨p.advance s, p.advance s⟩⟩]
      | some (.error e) => .error e
      | some (.ok (t, rest)) => (listFrom t.span.stop rest).map (t :: ·) := by
  unfold next?
  rw [listFrom]
  -- Both look at the first token alone.
  split
  · rename_i hskip
    simp only [hskip]
  · rename_i c text hskip
    simp only [hskip]
    split
    · rename_i hread
      simp only [hread]
    · rename_i hread
      simp only [hread]

/-- A quoted text is one token, which ends where the quoted text does. -/
theorem next?_quote_append (p : Position) (s : String) (rest : List Char) :
    next? p ((Text.quote s).toList ++ rest) =
      some (.ok (⟨.literal (.string s), ⟨p, p.advance (Text.quote s).toList⟩⟩, rest)) := by
  have hskip : Scan.skipLayout false ((Text.quote s).toList ++ rest) =
      (Text.quote s).toList ++ rest := by
    rw [Scan.quote_append]
    rfl
  unfold next?
  rw [hskip]
  simp only [Scan.quote_append, Scan.token_quote]
  rw [← Scan.quote_append]
  -- No layout is skipped, so the token starts where the text does.
  have hstart := Scan.positionBefore_append p [] ((Text.quote s).toList ++ rest)
  rw [List.nil_append, Position.advance, List.foldl_nil] at hstart
  rw [hstart, Scan.positionBefore_append]

/-- A quoted text in front of any other is read as the literal of that text: it is the first token,
whether or not reading fails behind it, and the tokens of the other text follow. Its span covers
what was quoted, in which there is no control. -/
theorem list_quote_append (name s t : String) :
    let span : Span := ⟨.start, Position.start.advance (Text.quote s).toList⟩
    next? .start (Text.quote s ++ t).toList = some (.ok (⟨.literal (.string s), span⟩, t.toList)) ∧
      list (Text.quote s ++ t) =
        (listFrom span.stop t.toList).map (⟨.literal (.string s), span⟩ :: ·) ∧
      (SourceText.mk name (Text.quote s ++ t)).slice? span = some (Text.quote s) ∧
      ∀ c ∈ (Text.quote s).toList, Unicode.isControl c = false := by
  intro span
  have hnext : next? .start (Text.quote s ++ t).toList =
      some (.ok (⟨.literal (.string s), span⟩, t.toList)) := by
    rw [String.toList_append]
    exact next?_quote_append .start s t.toList
  refine ⟨hnext, ?_, ?_, fun c hc => Text.isControl_of_mem_quote hc⟩
  · rw [list, listFrom_eq_next?, hnext]
  · have hstop := (Position.isPlaceAfter_advance_start (Text.quote s).toList).offset
    have hslice := Text.slice?_append [] (Text.quote s).toList t.toList
    rw [List.nil_append, List.nil_append, ← hstop, ← String.toList_append] at hslice
    have hzero : Position.start.offset = Text.byteLength [] := rfl
    rw [SourceText.slice?, hzero, hslice, Option.map_some, String.ofList_toList]

end Token

end CelShell
