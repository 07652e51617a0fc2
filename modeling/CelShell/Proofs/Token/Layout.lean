import CelShell.Proofs.Source.Place
import CelShell.Proofs.Token.Locality
import Mathlib.Data.List.Forall2

/-!
# A text is its tokens and the layout between them

Lexing loses nothing but layout and depends on nothing but tokens. `Scan.Laid` takes a text apart
into layout and tokens in turn, each token with the characters that it took and with its places;
`Scan.laid_of_listFrom` says that this is what the lexer does. What is claimed of the places is an
induction on that relation. What a token took is read as the same token before any boundary, so it
is read alone, and it is read among the others when spaces take the place of the layout
(`Token.exists_tiles_of_list`).
-/

namespace CelShell

namespace Scan

variable {atEnd : Prop} {c : Char} {gap s text rest : List Char} {k : Kind} {ks : List Kind}
  {p : Position} {n : Nat} {tokens : List Token}

/-! ## Layout -/

/-- The characters of white space. -/
def whiteSpace : List Char := [' ', '\t', '\r', '\n', '\x0c']

/-- What may stand between tokens: white space, and comments from two slashes to the end of a line.
The last line of a text may end without a line feed. -/
inductive Layout (atEnd : Prop) : List Char → Prop where
  | nil : Layout atEnd []
  | space {c : Char} {gap : List Char} : c ∈ whiteSpace → Layout atEnd gap →
      Layout atEnd (c :: gap)
  | comment {text gap : List Char} : '\n' ∉ text → Layout atEnd gap →
      Layout atEnd ('/' :: '/' :: (text ++ '\n' :: gap))
  | lastComment {text : List Char} : atEnd → '\n' ∉ text → Layout atEnd ('/' :: '/' :: text)

/-- The lexer skips white space only. -/
theorem mem_whiteSpace (h : isLayout c = true) : c ∈ whiteSpace := by
  simpa [isLayout, whiteSpace, or_assoc] using h

/-- A character other than a line feed keeps a text on its line. -/
theorem not_mem_cons_of_ne (hc : c ≠ '\n') (htext : '\n' ∉ text) : '\n' ∉ c :: text := by
  simp [Ne.symm hc, htext]

/-- One more character in a comment. -/
theorem Layout.comment_cons (hc : c ≠ '\n') (h : Layout atEnd ('/' :: '/' :: gap)) :
    Layout atEnd ('/' :: '/' :: c :: gap) := by
  cases h with
  | space hslash => exact absurd hslash (by decide)
  | comment htext hgap => exact .comment (not_mem_cons_of_ne hc htext) hgap
  | lastComment hend htext => exact .lastComment hend (not_mem_cons_of_ne hc htext)

/-- What is passed over is layout. If a text starts inside a comment, then it is so with the slashes
before it. -/
theorem exists_layout (comment : Bool) (s : List Char) :
    ∃ gap, s = gap ++ skipLayout comment s ∧
      Layout (skipLayout comment s = []) (if comment then '/' :: '/' :: gap else gap) := by
  fun_induction skipLayout comment s with
  | case1 comment =>
    refine ⟨[], rfl, ?_⟩
    cases comment with
    | true => exact .lastComment rfl (List.not_mem_nil)
    | false => exact .nil
  | case2 c rest ih =>
    obtain ⟨gap, hrest, hgap⟩ := ih
    refine ⟨c :: gap, by rw [List.cons_append, ← hrest], ?_⟩
    -- A line feed ends the comment, and any other character goes on with it.
    by_cases hc : c = '\n'
    · subst hc
      have hnil : '\n' ∉ ([] : List Char) := List.not_mem_nil
      exact .comment hnil hgap
    · rw [if_pos (by simpa using hc)] at hgap
      exact hgap.comment_cons hc
  | case3 rest ih =>
    obtain ⟨gap, hrest, hgap⟩ := ih
    exact ⟨'/' :: '/' :: gap, by rw [List.cons_append, List.cons_append, ← hrest], hgap⟩
  | case4 c rest _ hc ih =>
    obtain ⟨gap, hrest, hgap⟩ := ih
    exact ⟨c :: gap, by rw [List.cons_append, ← hrest], .space (mem_whiteSpace hc) hgap⟩
  | case5 c rest => exact ⟨[], rfl, .nil⟩

/-! ## Texts as layout and tokens -/

/-- A text that starts at a position, as tokens with layout before each of them and at its end. What
a token took is read as that token before any boundary. -/
inductive Laid : Position → List Char → List Token → Prop where
  | done {p : Position} {gap : List Char} : Layout True gap →
      Laid p gap [⟨.eof, ⟨p.advance gap, p.advance gap⟩⟩]
  | token {p : Position} {gap taken rest : List Char} {k : Kind} {tokens : List Token} :
      Layout False gap → taken ≠ [] → k.IsReadable → Spells taken [k] →
      Laid (p.advance (gap ++ taken)) rest tokens →
      Laid p (gap ++ (taken ++ rest))
        (⟨k, ⟨p.advance gap, p.advance (gap ++ taken)⟩⟩ :: tokens)

/-- The place before the rest of a text is the one behind what was taken. -/
theorem positionBefore_append (p : Position) (taken rest : List Char) :
    Token.positionBefore rest p (taken ++ rest) = p.advance taken := by
  rw [Token.positionBefore, List.length_append, Nat.add_sub_cancel, List.take_left]

/-- The layout before the first token of a text, and the place where the token starts. -/
theorem exists_gap (hskip : skipLayout false s = c :: text) :
    ∃ gap, s = gap ++ c :: text ∧ Layout False gap ∧
      ∀ p, Token.positionBefore (c :: text) p s = p.advance gap := by
  obtain ⟨gap, hgap, hlayout⟩ := exists_layout false s
  rw [hskip] at hgap
  rw [hskip, if_neg Bool.false_ne_true] at hlayout
  refine ⟨gap, hgap, by simpa using hlayout, fun p => ?_⟩
  rw [hgap, positionBefore_append]

/-- The characters of the first token of a text, between the layout before it and the rest, and the
places where the token starts and ends. -/
theorem exists_taken (hskip : skipLayout false s = c :: text) (hread : token c text = (.ok k, rest))
    (p : Position) :
    ∃ gap taken, s = gap ++ (taken ++ rest) ∧ Layout False gap ∧ taken ≠ [] ∧ Spells taken [k] ∧
      Token.positionBefore (c :: text) p s = p.advance gap ∧
      Token.positionBefore rest (p.advance gap) (c :: text) = p.advance (gap ++ taken) := by
  obtain ⟨gap, hgap, hlayout, hplace⟩ := exists_gap hskip
  obtain ⟨taken, htaken, hne, hspells⟩ := exists_spells_of_token hread
  refine ⟨gap, taken, by rw [hgap, htaken], hlayout, hne, hspells, hplace p, ?_⟩
  rw [htaken, positionBefore_append, Position.advance_append]

/-- The lexer takes a text apart into layout and tokens. -/
theorem laid_of_listFrom (h : Token.listFrom p s = .ok tokens) : Laid p s tokens := by
  fun_induction Token.listFrom p s generalizing tokens with
  | case1 p s hskip =>
    obtain ⟨gap, hgap, hlayout⟩ := exists_layout false s
    rw [hskip, List.append_nil] at hgap
    rw [if_neg Bool.false_ne_true] at hlayout
    subst hgap
    obtain rfl := Except.ok.inj h
    exact .done (by simpa [hskip] using hlayout)
  | case2 => cases h
  | case3 p s c text hskip start k rest hread stop =>
    rename_i ih
    -- Layout, then the characters of a token, then the rest from where the token ends.
    obtain ⟨gap, taken, rfl, hlayout, hne, hspells, hfrom, hto⟩ := exists_taken hskip hread p
    rw [← hfrom] at hto
    have hstart : start = p.advance gap := hfrom
    have hstop : stop = p.advance (gap ++ taken) := hto
    cases htokens : Token.listFrom stop rest with
    | error e => rw [htokens] at h; cases h
    | ok tokens =>
      have hrest := ih htokens
      rw [htokens] at h
      obtain rfl := Except.ok.inj h
      rw [hstop] at hrest
      rw [hstart, hstop]
      exact .token hlayout hne (isReadable_of_token hread) hspells hrest

/-! ## Where the tokens stand -/

/-- Layout at the end of a text is layout wherever the end is claimed. -/
theorem Layout.mono {atEnd' : Prop} (h : Layout atEnd gap) (himp : atEnd → atEnd') :
    Layout atEnd' gap := by
  induction h with
  | nil => exact .nil
  | space hc _ ih => exact .space hc ih
  | comment htext _ ih => exact .comment htext ih
  | lastComment hend htext => exact .lastComment (himp hend) htext

open Position Text

/-- Tokens that stand one after the other in a text, from an offset on, with the end mark as the
last of them. -/
inductive Placed (text : List Char) : Nat → List Token → Prop where
  | done {offset : Nat} {stop : Position} : offset ≤ stop.offset → stop.IsPlaceOf text →
      Placed text offset [⟨.eof, ⟨stop, stop⟩⟩]
  | token {offset : Nat} {t : Token} {rest : List Token} : t.kind ≠ .eof →
      offset ≤ t.span.start.offset → t.span.IsStretchOf text →
      Placed text t.span.stop.offset rest → Placed text offset (t :: rest)

/-- Every token stands behind the offset. -/
theorem Placed.le (h : Placed text n tokens) : ∀ t ∈ tokens, n ≤ t.span.start.offset := by
  induction h with
  | done hle => exact List.forall_mem_singleton.2 hle
  | token _ hle hstretch _ ih =>
    exact List.forall_mem_cons.2 ⟨hle, fun t ht =>
      Nat.le_trans hle (Nat.le_trans (Nat.le_of_lt hstretch.lt) (ih t ht))⟩

/-- Every token stands behind those before it. -/
theorem Placed.pairwise (h : Placed text n tokens) :
    tokens.Pairwise fun t u => t.span.stop.offset ≤ u.span.start.offset := by
  induction h with
  | done => exact List.pairwise_singleton _ _
  | token _ _ _ hrest ih => exact List.pairwise_cons.2 ⟨hrest.le, ih⟩

/-- A token that took characters covers them. -/
theorem isStretchOf_advance {before taken : List Char} (hp : IsPlaceAfter before p)
    (hne : taken ≠ []) (rest : List Char) :
    Span.IsStretchOf (before ++ (taken ++ rest)) ⟨p, p.advance taken⟩ where
  start := ⟨before, taken ++ rest, rfl, hp⟩
  stop := ⟨before ++ taken, rest, (List.append_assoc _ _ _).symm, hp.advance taken⟩
  lt := by
    rw [offset_advance p taken]
    exact Nat.lt_add_of_pos_right (byteLength_pos hne)

/-- Tokens laid out from a place on stand in the text in that order. -/
theorem Laid.placed (h : Laid p s tokens) {before : List Char} (hp : IsPlaceAfter before p) :
    Placed (before ++ s) p.offset tokens := by
  induction h generalizing before with
  | @done p gap =>
    have hle : p.offset ≤ (p.advance gap).offset := by
      rw [offset_advance]
      exact Nat.le_add_right _ _
    exact .done hle ⟨before ++ gap, [], (List.append_nil _).symm, hp.advance gap⟩
  | @token p gap taken rest k tokens _ hne hreadable _ _ ih =>
    have hrest := ih (hp.advance (gap ++ taken))
    -- A token takes a character at least, so it covers a stretch.
    have hstretch := isStretchOf_advance (hp.advance gap) hne rest
    rw [List.append_assoc, ← advance_append] at hstretch
    rw [List.append_assoc, List.append_assoc] at hrest
    refine .token ?_ ?_ hstretch hrest
    · rintro rfl
      exact hreadable
    · show p.offset ≤ (p.advance gap).offset
      rw [offset_advance]
      exact Nat.le_add_right _ _

/-- A fault is reported from where its token starts. -/
theorem isPlaceOf_of_listFrom {e : LexError} (h : Token.listFrom p s = .error e)
    {before : List Char} (hp : IsPlaceAfter before p) :
    e.span.start.IsPlaceOf (before ++ s) := by
  fun_induction Token.listFrom p s generalizing before with
  | case1 => cases h
  | case2 p s c text hskip start fault rest hread =>
    -- The faulty token starts behind the layout.
    obtain ⟨gap, rfl, -, hplace⟩ := exists_gap hskip
    have hstart : start = p.advance gap := hplace p
    obtain rfl := Except.error.inj h
    refine ⟨before ++ gap, c :: text, (List.append_assoc _ _ _).symm, ?_⟩
    rw [hstart]
    exact hp.advance gap
  | case3 p s c text hskip start k rest hread stop =>
    rename_i ih
    obtain ⟨gap, taken, rfl, -, -, -, hfrom, hto⟩ := exists_taken hskip hread p
    rw [← hfrom] at hto
    have hplace := hp.advance (gap ++ taken)
    rw [← hto] at hplace
    cases htokens : Token.listFrom stop rest with
    | ok tokens => rw [htokens] at h; cases h
    | error e' =>
      rw [htokens] at h
      obtain rfl := Except.error.inj h
      have hrest := ih htokens hplace
      rwa [List.append_assoc, List.append_assoc] at hrest

/-- The stretches outside of some tokens that stand between two offsets. -/
def gaps (start stop : Nat) : List Token → List (Nat × Nat)
  | [] => [(start, stop)]
  | t :: rest => (start, t.span.start.offset) :: gaps t.span.stop.offset stop rest

/-- The tokens of a text are words with slices of their own, and an end mark. What stands outside of
the words is layout. -/
theorem Laid.words (h : Laid p s tokens) {before : List Char} (hp : IsPlaceAfter before p) :
    ∃ words stop slices, tokens = words ++ [⟨.eof, ⟨stop, stop⟩⟩] ∧
      stop.offset = byteLength (before ++ s) ∧
      List.Forall₂ (fun (w : Token) (slice : String) => w.kind.IsReadable ∧
        w.span.start.offset < w.span.stop.offset ∧
        slice? w.span.start.offset w.span.stop.offset (before ++ s) = some slice.toList ∧
        Spells slice.toList [w.kind]) words slices ∧
      ∀ g ∈ gaps p.offset stop.offset words, ∃ gap, slice? g.1 g.2 (before ++ s) = some gap ∧
        Layout (g.2 = byteLength (before ++ s)) gap := by
  induction h generalizing before with
  | @done p gap hlayout =>
    have hstop := (hp.advance gap).offset
    refine ⟨[], p.advance gap, [], rfl, hstop, .nil,
      List.forall_mem_singleton.2 ⟨gap, ?_, hlayout.mono fun _ => hstop⟩⟩
    have hslice := slice?_append before gap []
    rwa [List.append_nil, ← hp.offset, ← hstop] at hslice
  | @token p gap taken rest k tokens hlayout hne hreadable hspells _ ih =>
    have hstart := (hp.advance gap).offset
    have hend := (hp.advance (gap ++ taken)).offset
    -- The slices of the whole text are meant, so the token belongs to what is before the rest.
    obtain ⟨words, stop, slices, rfl, hstop, hwords, hgaps⟩ := ih (hp.advance (gap ++ taken))
    rw [List.append_assoc, List.append_assoc] at hstop hwords hgaps
    have hlt := (isStretchOf_advance (hp.advance gap) hne rest).lt
    rw [← advance_append] at hlt
    have hslice := slice?_append (before ++ gap) taken rest
    rw [List.append_assoc, List.append_assoc, ← hstart, ← hend] at hslice
    have hgap := slice?_append before gap (taken ++ rest)
    rw [← hp.offset, ← hstart] at hgap
    have hlist : (String.ofList taken).toList = taken := String.toList_ofList
    exact ⟨_ :: words, stop, String.ofList taken :: slices, rfl, hstop,
      .cons ⟨hreadable, hlt, by rw [hlist]; exact hslice, by rwa [hlist]⟩ hwords,
      List.forall_mem_cons.2 ⟨⟨gap, hgap, hlayout.mono False.elim⟩, hgaps⟩⟩

/-! ## Texts of tokens alone -/

/-- The texts of tokens with a space between them are read as these tokens. -/
theorem spells_intercalate {slices : List String}
    (h : List.Forall₂ (fun k (slice : String) => Spells slice.toList [k]) ks slices) :
    Spells (" ".intercalate slices).toList ks := by
  induction h with
  | nil => exact passes_nil.toSpells
  | cons hfirst hrest ih =>
    cases hrest with
    | nil => simpa using hfirst
    | cons =>
      rw [String.intercalate_cons_cons]
      simp only [String.toList_append, String.reduceToList, List.append_assoc]
      exact hfirst.append (by decide) (passes_space.spells ih)

/-- A text that spells tokens is read as these. -/
theorem Spells.lexes (h : Spells s ks) : Lexes s ks := by
  have hdone := h .finish (.done rfl)
  rwa [List.append_nil, List.append_nil] at hdone

end Scan

namespace Token

open Scan Position Text

/-- The kinds of the tokens of a text, if it has no fault. -/
def kinds? (source : String) : Except LexError (List Kind) :=
  (list source).map (List.map Token.kind)

/-- A text that is read as tokens has their kinds, with the end mark behind them. -/
theorem kinds?_of_lexes {source : String} {ks : List Kind} (h : Lexes source.toList ks) :
    kinds? source = .ok (ks ++ [.eof]) := by
  obtain ⟨tokens, htokens, hkinds⟩ := h.exists_listFrom .start
  rw [kinds?, list, htokens, ← hkinds]
  rfl

/-- What the words of a text are to it, with the slices that they cover. -/
structure Tiles (source : String) (words : List Token) (slices : List String) : Prop where
  /-- The spans are between characters of the text and not empty. -/
  covered : List.Forall₂ (fun w slice => w.span.start.offset < w.span.stop.offset ∧
    ∀ name, SourceText.slice? ⟨name, source⟩ w.span = some slice) words slices
  /-- The spans are in order and do not overlap. -/
  ordered : words.Pairwise fun v w => v.span.stop.offset ≤ w.span.start.offset
  /-- Nothing but layout is outside of the spans. -/
  between : ∀ g ∈ gaps 0 (byteLength source.toList) words, ∃ gap,
    slice? g.1 g.2 source.toList = some gap ∧ Layout (g.2 = byteLength source.toList) gap
  /-- A slice by itself is read as its word. -/
  alone : List.Forall₂ (fun w slice => kinds? slice = .ok [w.kind, .eof]) words slices
  /-- With a space between them the slices are read as the words of the text. -/
  joined : kinds? (" ".intercalate slices) = kinds? source

/-- Lexing is lossless and does not depend on layout. The tokens of a text are words and an end
mark. The words cover slices of the text, and all that stands outside of these is layout. Each slice
is read as its word again, alone and among the others. -/
theorem exists_tiles_of_list {source : String} {tokens : List Token}
    (h : list source = .ok tokens) :
    ∃ words stop slices, tokens = words ++ [⟨.eof, ⟨stop, stop⟩⟩] ∧
      stop.offset = byteLength source.toList ∧ (∀ w ∈ words, w.kind ≠ .eof) ∧
      Tiles source words slices := by
  have hlaid : Laid .start source.toList tokens := laid_of_listFrom h
  obtain ⟨words, stop, slices, htokens, hstop, hwords, hgaps⟩ :=
    hlaid.words (isPlaceAfter_advance_start [])
  rw [List.nil_append] at hstop hwords hgaps
  have hzero : start.offset = 0 := rfl
  rw [hzero, hstop] at hgaps
  obtain ⟨hreadable, hwords⟩ := (List.forall₂_and_left _ _).1 hwords
  -- Each word is spelled by its own slice.
  have hspells : List.Forall₂ (fun k (slice : String) => Spells slice.toList [k])
      (words.map Token.kind) slices :=
    List.forall₂_map_left_iff.2 (hwords.imp fun _ _ hw => hw.2.2)
  have hkinds : kinds? source = .ok (words.map Token.kind ++ [.eof]) := by
    rw [kinds?, h, htokens]
    simp [Except.map]
  refine ⟨words, stop, slices, htokens, hstop, fun w hw heof => ?_, ?_, ?_, hgaps, ?_, ?_⟩
  · -- A word has a form that can be written, and the end mark has none.
    have hnot := hreadable w hw
    rw [heof] at hnot
    exact hnot
  · refine hwords.imp fun w slice hw => ⟨hw.1, fun name => ?_⟩
    rw [SourceText.slice?, hw.2.1, Option.map_some, String.ofList_toList]
  · have hordered := (hlaid.placed (isPlaceAfter_advance_start [])).pairwise
    rw [htokens, List.pairwise_append] at hordered
    exact hordered.1
  · exact hwords.imp fun w slice hw => kinds?_of_lexes hw.2.2.lexes
  · rw [kinds?_of_lexes (spells_intercalate hspells).lexes, hkinds]

/-- Words that touch: a raw string, an operator of two characters, a hexadecimal number with its
suffix, a call on a number, and a comment that the text ends in. -/
def touching : String := "r'\\'>=0xFu\t-1.x2E//="

/-- The words that touch are read apart, and each of them is read alone as the same token. -/
theorem exists_tiles_of_list_touching :
    ∃ tokens, list touching = .ok tokens ∧
      tokens.map Token.kind = [.literal (.string "\\"), .symbol .greaterEquals, .literal (.uint 15),
        .symbol .minus, .literal (.int 1), .symbol .dot, .ident "x2E", .eof] ∧
      ∃ words stop slices, tokens = words ++ [⟨.eof, ⟨stop, stop⟩⟩] ∧
        stop.offset = byteLength touching.toList ∧ (∀ w ∈ words, w.kind ≠ .eof) ∧
        Tiles touching words slices := by
  have hkinds : (list touching).toOption.map (List.map Token.kind) =
      some [.literal (.string "\\"), .symbol .greaterEquals, .literal (.uint 15), .symbol .minus,
        .literal (.int 1), .symbol .dot, .ident "x2E", .eof] := by
    decide +kernel
  cases h : list touching with
  | error e => rw [h] at hkinds; cases hkinds
  | ok tokens =>
    rw [h] at hkinds
    exact ⟨tokens, rfl, Option.some.inj hkinds, exists_tiles_of_list h⟩

end Token

end CelShell
