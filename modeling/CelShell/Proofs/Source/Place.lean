import CelShell.Source.Text
import Mathlib.Data.List.Induction

/-!
# Places of a text

A place stands between a first part of a text and the rest. What a position says of it can be read
off the first part: its bytes, the line feeds in it, and what comes after the last of them. Passing
over characters goes from place to place, a text is cut at the offsets of its places, and every
place stands in a line that exists (`SourceText.exists_line?_of_isPlaceOf`).
-/

namespace CelShell

namespace Text

/-- The bytes of two texts add up. -/
theorem byteLength_append (s t : List Char) :
    byteLength (s ++ t) = byteLength s + byteLength t := by
  induction s with
  | nil => simp [byteLength]
  | cons c s ih => rw [List.cons_append, byteLength, byteLength, ih, Nat.add_assoc]

/-- A text with a character has a byte. -/
theorem byteLength_pos {s : List Char} (h : s ≠ []) : 0 < byteLength s := by
  cases s with
  | nil => exact absurd rfl h
  | cons c s => exact Nat.add_pos_left c.utf8Size_pos _

/-- A text can be split behind any first part of it. -/
theorem splitAt?_byteLength (s t : List Char) : splitAt? (byteLength s) (s ++ t) = some (s, t) := by
  induction s with
  | nil => rw [byteLength, List.nil_append, splitAt?]
  | cons c s ih =>
    obtain ⟨n, hn⟩ : ∃ n, c.utf8Size + byteLength s = n + 1 :=
      Nat.exists_eq_succ_of_ne_zero (Nat.ne_of_gt (Nat.add_pos_left c.utf8Size_pos _))
    have hle : c.utf8Size ≤ n + 1 := hn ▸ Nat.le_add_right _ _
    have hrest : n + 1 - c.utf8Size = byteLength s := by rw [← hn, Nat.add_sub_cancel_left]
    rw [byteLength, hn, List.cons_append, splitAt?, if_pos hle, hrest, ih]
    rfl

/-- What stands between two places is the slice between their offsets. -/
theorem slice?_append (before part after : List Char) :
    slice? (byteLength before) (byteLength (before ++ part)) (before ++ (part ++ after)) =
      some part := by
  have hle : byteLength before ≤ byteLength (before ++ part) := by
    rw [byteLength_append]
    exact Nat.le_add_right _ _
  have hlength : byteLength (before ++ part) - byteLength before = byteLength part := by
    rw [byteLength_append, Nat.add_sub_cancel_left]
  unfold slice?
  rw [splitAt?_byteLength]
  simp only [Option.bind_eq_bind, Option.bind_some, if_pos hle, hlength, splitAt?_byteLength]
  rfl

/-- The last line of a text, which no line feed ends. -/
def lastLine (s : List Char) : List Char := (s.reverse.takeWhile (· != '\n')).reverse

/-- A line feed starts an empty line, and any other character goes on with the last one. -/
theorem lastLine_append_singleton (s : List Char) (c : Char) :
    lastLine (s ++ [c]) = if c = '\n' then [] else lastLine s ++ [c] := by
  unfold lastLine
  rw [List.reverse_append, List.reverse_singleton, List.singleton_append, List.takeWhile_cons]
  by_cases hc : c = '\n' <;> simp [hc]

end Text

namespace Position

open Text

variable {text s : List Char} {p : Position}

/-- To pass over two texts is to pass over one and then over the other. -/
theorem advance_append (p : Position) (s t : List Char) :
    p.advance (s ++ t) = (p.advance s).advance t := List.foldl_append

/-- A character moves the offset by its bytes. -/
theorem offset_step (p : Position) (c : Char) : (p.step c).offset = p.offset + c.utf8Size := by
  unfold Position.step
  by_cases hc : c = '\n'
  · subst hc
    rfl
  · rw [if_neg hc]

/-- A text moves the offset by its bytes. -/
theorem offset_advance (p : Position) (s : List Char) :
    (p.advance s).offset = p.offset + byteLength s := by
  induction s generalizing p with
  | nil => rfl
  | cons c s ih =>
    rw [byteLength, ← Nat.add_assoc, ← offset_step]
    exact ih (p.step c)

/-- The place of a text behind a first part of it. -/
structure IsPlaceAfter (before : List Char) (p : Position) : Prop where
  offset : p.offset = byteLength before
  line : p.line = 1 + before.count '\n'
  column : p.column = 1 + (lastLine before).length

/-- A position of a text that is on the boundary of a character. -/
def IsPlaceOf (text : List Char) (p : Position) : Prop :=
  ∃ before after, text = before ++ after ∧ IsPlaceAfter before p

/-- The place behind one more character. -/
theorem IsPlaceAfter.step {before : List Char} (h : IsPlaceAfter before p) (c : Char) :
    IsPlaceAfter (before ++ [c]) (p.step c) := by
  have hoffset : (p.step c).offset = byteLength (before ++ [c]) := by
    rw [offset_step, h.offset, byteLength_append, byteLength, byteLength, Nat.add_zero]
  have hlast := lastLine_append_singleton before c
  refine ⟨hoffset, ?_, ?_⟩
  all_goals
    unfold Position.step
    -- A line feed starts the next line, and any other character is a column.
    by_cases hc : c = '\n'
    · subst hc
      rw [if_pos rfl] at hlast
      simp [h.line, hlast, Nat.add_assoc]
    · rw [if_neg hc] at hlast
      simp [hc, h.line, h.column, hlast, Nat.add_assoc]

/-- The place behind more characters. -/
theorem IsPlaceAfter.advance {before : List Char} (h : IsPlaceAfter before p) (s : List Char) :
    IsPlaceAfter (before ++ s) (p.advance s) := by
  induction s generalizing before p with
  | nil => rwa [List.append_nil]
  | cons c s ih =>
    have hnext := ih (h.step c)
    rwa [List.append_assoc] at hnext

/-- From the start of a text every first part of it leads to a place. -/
theorem isPlaceAfter_advance_start (s : List Char) : IsPlaceAfter s (start.advance s) := by
  have hstart : IsPlaceAfter [] start := ⟨rfl, rfl, rfl⟩
  exact hstart.advance s

/-- A place is on a line, so it is not the dummy position. -/
theorem IsPlaceOf.line_ne_zero (h : IsPlaceOf text p) : p.line ≠ 0 := by
  obtain ⟨before, after, -, hplace⟩ := h
  rw [hplace.line]
  omega

end Position

namespace Span

variable {text : List Char} {s t : Span}

/-- A stretch of a text that holds a character at least, from one of its places to another. -/
structure IsStretchOf (text : List Char) (s : Span) : Prop where
  start : s.start.IsPlaceOf text
  stop : s.stop.IsPlaceOf text
  lt : s.start.offset < s.stop.offset

/-- A span that starts at a place of a text is not the dummy. -/
theorem isDummy_of_isPlaceOf (h : s.start.IsPlaceOf text) : s.isDummy = false :=
  beq_eq_false_iff_ne.2 h.line_ne_zero

/-- Two stretches one after the other are covered from the start of the first to the end of the
second. -/
theorem cover_eq (hs : s.IsStretchOf text) (ht : t.IsStretchOf text)
    (hle : s.stop.offset ≤ t.start.offset) : s.cover t = ⟨s.start, t.stop⟩ := by
  have hstart : ¬ t.start.offset < s.start.offset :=
    Nat.not_lt.2 (Nat.le_trans (Nat.le_of_lt hs.lt) hle)
  have hstop : t.stop.offset > s.stop.offset := Nat.lt_of_le_of_lt hle ht.lt
  rw [cover, isDummy_of_isPlaceOf hs.start, isDummy_of_isPlaceOf ht.start,
    if_neg Bool.false_ne_true, if_neg Bool.false_ne_true, if_neg hstart, if_pos hstop]

/-- What covers two stretches is a stretch. -/
theorem IsStretchOf.cover (hs : s.IsStretchOf text) (ht : t.IsStretchOf text)
    (hle : s.stop.offset ≤ t.start.offset) : (s.cover t).IsStretchOf text := by
  rw [cover_eq hs ht hle]
  exact ⟨hs.start, ht.stop, Nat.lt_trans (Nat.lt_of_lt_of_le hs.lt hle) ht.lt⟩

end Span

namespace SourceText

open Position Text

/-- A text has a line. -/
theorem exists_splitLines (s : List Char) : ∃ line lines, splitLines s = line :: lines := by
  cases s with
  | nil => exact ⟨[], [], rfl⟩
  | cons c s =>
    rw [splitLines]
    split
    · exact ⟨_, _, rfl⟩
    · split <;> exact ⟨_, _, rfl⟩

/-- The lines from the one in which a first part of a text ends: what the part has of it comes
first. -/
theorem drop_splitLines_append (before after : List Char) :
    ∃ line lines, splitLines after = line :: lines ∧
      (splitLines (before ++ after)).drop (before.count '\n') =
        (lastLine before ++ line) :: lines := by
  -- Going back from the end of the first part, its last character is the first of the rest.
  induction before using List.reverseRecOn generalizing after with
  | nil =>
    obtain ⟨line, lines, hlines⟩ := exists_splitLines after
    exact ⟨line, lines, hlines, hlines⟩
  | append_singleton before c ih =>
    obtain ⟨line, lines, hlines⟩ := exists_splitLines after
    obtain ⟨line', lines', hnext, hdrop⟩ := ih (c :: after)
    refine ⟨line, lines, hlines, ?_⟩
    rw [List.append_assoc, List.singleton_append, lastLine_append_singleton, List.count_append]
    by_cases hc : c = '\n'
    · subst hc
      rw [splitLines, if_pos rfl] at hnext
      obtain ⟨rfl, rfl⟩ := List.cons.inj hnext
      rw [if_pos rfl, List.count_singleton_self, ← List.drop_drop, hdrop]
      exact hlines
    · rw [splitLines, if_neg hc, hlines] at hnext
      obtain ⟨rfl, rfl⟩ := List.cons.inj hnext
      have hcount : [c].count '\n' = 0 := List.count_eq_zero.2 (by simp [Ne.symm hc])
      rw [if_neg hc, hcount, Nat.add_zero, hdrop, List.append_assoc, List.singleton_append]

/-- Every place of a text stands in one of its lines. -/
theorem exists_line?_of_isPlaceOf {source : SourceText} {p : Position}
    (h : IsPlaceOf source.content.toList p) : ∃ line, source.line? p.line = some line := by
  obtain ⟨before, after, htext, hplace⟩ := h
  obtain ⟨line, lines, -, hdrop⟩ := drop_splitLines_append before after
  have hline : source.lines[p.line - 1]? = some (lastLine before ++ line) := by
    rw [SourceText.lines, htext, hplace.line, Nat.add_sub_cancel_left, ← List.head?_drop, hdrop]
    rfl
  unfold line?
  rw [if_neg (IsPlaceOf.line_ne_zero ⟨before, after, htext, hplace⟩), hline]
  exact ⟨_, rfl⟩

end SourceText

end CelShell
