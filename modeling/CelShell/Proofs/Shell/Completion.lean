import Mathlib.Data.List.Pairwise
import Mathlib.Data.List.TakeWhile
import Mathlib.Data.String.Basic
import CelShell.Proofs.Source.Place
import CelShell.Shell.Completion

/-!
# What completion offers

A place is completed by the word that ends there, and that word is found from the end of the text
before the place (`Completion.exists_word`). What is offered are the names that are known and begin
with the word. Sorting may change the order of the candidates but not which of those of one name
comes first, since it is stable, and leaving out repetitions keeps that first one
(`Completion.find?_sorted`). So each name is offered once, and as a function if there is one of that
name (`Completion.complete?_eq_some`).
-/

namespace CelShell

namespace Text

/-- The two parts into which a text is split make up the text, and the offset counts the bytes of
the first. -/
theorem eq_append_of_splitAt? {n : Nat} {s before after : List Char}
    (h : splitAt? n s = some (before, after)) : s = before ++ after ∧ byteLength before = n := by
  induction s generalizing n before with
  | nil =>
    cases n with
    | zero =>
      rw [splitAt?, Option.some.injEq, Prod.mk.injEq] at h
      obtain ⟨rfl, rfl⟩ := h
      exact ⟨rfl, rfl⟩
    | succ n => cases h
  | cons c s ih =>
    cases n with
    | zero =>
      rw [splitAt?, Option.some.injEq, Prod.mk.injEq] at h
      obtain ⟨rfl, rfl⟩ := h
      exact ⟨rfl, rfl⟩
    | succ n =>
      rw [splitAt?] at h
      split at h
      · -- The first character goes to the first part, with the bytes that it has.
        next hle =>
        obtain ⟨⟨before', after'⟩, hsplit, heq⟩ := Option.map_eq_some_iff.mp h
        rw [Prod.mk.injEq] at heq
        obtain ⟨rfl, rfl⟩ := heq
        obtain ⟨rfl, hlength⟩ := ih hsplit
        refine ⟨rfl, ?_⟩
        rw [byteLength, hlength]
        omega
      · cases h

end Text

namespace Completion

/-! ## The word before a place -/

/-- The word at the end of a text is the longest part there of characters of a word. -/
theorem exists_word {text word : List Char} {start : Nat}
    (h : wordAtEnd? text = some (start, word)) :
    ∃ before, text = before ++ word ∧ Text.byteLength before = start ∧
      (∀ c ∈ word, isWordChar c = true) ∧
      ∀ other, other <:+ text → (∀ c ∈ other, isWordChar c = true) → other <:+ word := by
  obtain ⟨before, hbefore⟩ : ∃ before, before = (text.reverse.dropWhile isWordChar).reverse :=
    ⟨_, rfl⟩
  have hword : word = (text.reverse.takeWhile isWordChar).reverse := by
    unfold wordAtEnd? at h
    dsimp only at h
    split at h
    · exact (Prod.mk.inj (Option.some.inj h)).2.symm
    · split at h
      · exact (Prod.mk.inj (Option.some.inj h)).2.symm
      · cases h
  have htext : text = before ++ word := by
    rw [hbefore, hword, ← List.reverse_append, List.takeWhile_append_dropWhile,
      List.reverse_reverse]
  refine ⟨before, htext, ?_, ?_, ?_⟩
  · unfold wordAtEnd? at h
    dsimp only at h
    split at h
    · next hnil =>
      rw [hbefore, hnil]
      exact (Prod.mk.inj (Option.some.inj h)).1
    · next separator rest hrest =>
      split at h
      · next hsize =>
        -- The separator takes one byte, so the word begins one byte behind its start.
        rw [hbefore, hrest, List.reverse_cons, Text.byteLength_append, Text.byteLength,
          Text.byteLength, hsize]
        exact (Prod.mk.inj (Option.some.inj h)).1
      · cases h
  · intro c hc
    rw [hword, List.mem_reverse] at hc
    exact List.mem_takeWhile_imp hc
  · rintro other ⟨front, rfl⟩ hother
    -- Read from the end, the other part is taken as a whole before anything else is.
    have htake : ((front ++ other).reverse).takeWhile isWordChar =
        other.reverse ++ front.reverse.takeWhile isWordChar := by
      rw [List.reverse_append, List.takeWhile_append_of_pos]
      exact fun c hc => hother c (List.mem_reverse.mp hc)
    rw [hword, htake, List.reverse_append, List.reverse_reverse]
    exact List.suffix_append _ other

/-! ## The candidates in order -/

section Repetitions

variable {α κ : Type} [DecidableEq κ] {key : α → κ}

/-- Leaving out repetitions keeps the first element of each key. -/
theorem find?_dropRepeated (k : κ) (xs : List α) :
    (dropRepeated key xs).find? (fun a => key a = k) = xs.find? fun a => key a = k := by
  fun_induction dropRepeated key xs with
  | case1 => rfl
  | case2 => rfl
  | case3 a b rest heq ih =>
    rw [ih, List.find?_cons, List.find?_cons, List.find?_cons, ← heq]
    by_cases hk : key a = k
    · simp only [hk, decide_true]
    · simp only [hk, decide_false]
  | case4 a b rest hne ih => rw [List.find?_cons, List.find?_cons, ih]

/-- What is left out is one of the elements. -/
theorem mem_of_mem_dropRepeated {a : α} {xs : List α} (h : a ∈ dropRepeated key xs) : a ∈ xs := by
  fun_induction dropRepeated key xs with
  | case1 => exact h
  | case2 => exact h
  | case3 b c rest _ ih =>
    rcases List.mem_cons.mp (ih h) with rfl | hrest
    · exact List.mem_cons_self
    · exact List.mem_cons_of_mem _ (List.mem_cons_of_mem _ hrest)
  | case4 b c rest _ ih =>
    rcases List.mem_cons.mp h with rfl | hrest
    · exact List.mem_cons_self
    · exact List.mem_cons_of_mem _ (ih hrest)

/-- Without repetitions, keys that do not decrease increase. -/
theorem pairwise_dropRepeated [LinearOrder κ] {xs : List α}
    (h : xs.Pairwise fun a b => key a ≤ key b) :
    (dropRepeated key xs).Pairwise fun a b => key a < key b := by
  fun_induction dropRepeated key xs with
  | case1 => exact List.Pairwise.nil
  | case2 a => exact List.pairwise_singleton _ a
  | case3 a b rest heq ih =>
    obtain ⟨hfirst, hrest⟩ := List.pairwise_cons.mp h
    refine ih (List.pairwise_cons.mpr ⟨fun c hc => hfirst c (List.mem_cons_of_mem b hc), ?_⟩)
    exact (List.pairwise_cons.mp hrest).2
  | case4 a b rest hne ih =>
    obtain ⟨hfirst, hrest⟩ := List.pairwise_cons.mp h
    refine List.pairwise_cons.mpr ⟨fun c hc => ?_, ih hrest⟩
    -- The element after the first one has a greater key, and no later one has a smaller key.
    have hlt : key a < key b := lt_of_le_of_ne (hfirst b List.mem_cons_self) hne
    rcases List.mem_cons.mp (mem_of_mem_dropRepeated hc) with rfl | hc
    · exact hlt
    · exact lt_of_lt_of_le hlt ((List.pairwise_cons.mp hrest).1 c hc)

end Repetitions

/-- Whether the name of a candidate comes before that of another or is the same. -/
private def byName (a b : Candidate) : Bool := decide (a.replacement ≤ b.replacement)

/-- The order of names is transitive. -/
private theorem byName_trans (a b c : Candidate) (hab : byName a b = true)
    (hbc : byName b c = true) : byName a c = true := by
  unfold byName at *
  rw [decide_eq_true_eq] at *
  exact le_trans hab hbc

/-- Of two names one comes first or they are the same. -/
private theorem byName_total (a b : Candidate) : (byName a b || byName b a) = true := by
  unfold byName
  rw [Bool.or_eq_true, decide_eq_true_eq, decide_eq_true_eq]
  exact le_total a.replacement b.replacement

/-- Sorting keeps the candidates of one name in their order. -/
theorem filter_mergeSort (name : String) (cs : List Candidate) :
    (cs.mergeSort byName).filter (fun c => c.replacement = name) =
      cs.filter fun c => c.replacement = name := by
  have hordered : (cs.filter fun c => c.replacement = name).Pairwise
      fun a b => byName a b = true := by
    refine List.pairwise_of_forall_mem_list fun a ha b hb => ?_
    have haname : a.replacement = name := by simpa using List.of_mem_filter ha
    have hbname : b.replacement = name := by simpa using List.of_mem_filter hb
    unfold byName
    rw [haname, hbname, decide_eq_true_eq]
  -- The candidates of the name stay in their order, and there are as many as before.
  have hsublist := (List.sublist_mergeSort byName_trans byName_total hordered
    List.filter_sublist).filter fun c => c.replacement = name
  rw [List.filter_filter] at hsublist
  simp only [Bool.and_self] at hsublist
  have hlength := ((List.mergeSort_perm cs byName).filter fun c => c.replacement = name).length_eq
  exact (hsublist.eq_of_length hlength.symm).symm

/-- Of the candidates of one name, the first is the one that is left. -/
theorem find?_sorted (name : String) (cs : List Candidate) :
    (sorted cs).find? (fun c => c.replacement = name) = cs.find? fun c => c.replacement = name := by
  unfold sorted
  rw [find?_dropRepeated, ← List.head?_filter, ← List.head?_filter]
  exact congrArg List.head? (filter_mergeSort name cs)

/-- The names that are left increase. -/
theorem pairwise_sorted (cs : List Candidate) :
    (sorted cs).Pairwise fun a b => a.replacement < b.replacement := by
  refine pairwise_dropRepeated ((List.pairwise_mergeSort byName_trans byName_total cs).imp ?_)
  intro a b h
  exact of_decide_eq_true h

/-- The names that are left are those of the candidates. -/
theorem mem_replacements_sorted {name : String} {cs : List Candidate} :
    name ∈ (sorted cs).map Candidate.replacement ↔ name ∈ cs.map Candidate.replacement := by
  have hfind : ∀ all : List Candidate, name ∈ all.map Candidate.replacement ↔
      (all.find? fun c => c.replacement = name).isSome = true := by
    intro all
    rw [List.find?_isSome, List.mem_map]
    simp only [decide_eq_true_eq]
  rw [hfind, hfind, find?_sorted]

/-- A candidate that is left is the first of its name. -/
theorem find?_of_mem_sorted {c : Candidate} {cs : List Candidate} (h : c ∈ sorted cs) :
    cs.find? (fun d => d.replacement = c.replacement) = some c := by
  rw [← find?_sorted, List.find?_eq_some_iff_append]
  refine ⟨decide_eq_true rfl, ?_⟩
  obtain ⟨before, after, hsplit⟩ := List.append_of_mem h
  refine ⟨before, after, hsplit, fun d hd => ?_⟩
  -- The candidates before it have names that are less than its own.
  have hlt : d.replacement < c.replacement := by
    have hpairs := hsplit ▸ pairwise_sorted cs
    exact (List.pairwise_append.mp hpairs).2.2 d hd c List.mem_cons_self
  rw [Bool.not_eq_true', decide_eq_false_iff_not]
  exact ne_of_lt hlt

/-! ## What is offered -/

/-- A name that completion knows. Only a function whose name begins like a word can be entered as
one, and those of the operators do not. -/
def IsKnown (functions : List String) (name : String) : Prop :=
  (name ∈ functions ∧ ∃ c rest, name.toList = c :: rest ∧ Unicode.isAlphabetic c = true) ∨
    name ∈ macroNames ∨ name ∈ keywords

/-- How a name is shown: as a function if there is one of that name, else as a macro or as it is. -/
def ShownAs (functions : List String) (name shown : String) : Prop :=
  (name ∈ functions → shown = name ++ "()") ∧
    (name ∉ functions → name ∈ macroNames → shown = "macro " ++ name) ∧
    (name ∉ functions → name ∉ macroNames → shown = name)

/-- What completing a word has to offer. -/
structure Completes (functions : List String) (word : List Char) (cs : List Candidate) : Prop where
  /-- The names are in order, so none is offered twice. -/
  increasing : (cs.map Candidate.replacement).Pairwise (· < ·)
  /-- They are those that begin with the word. -/
  names : ∀ name, name ∈ cs.map Candidate.replacement ↔
    IsKnown functions name ∧ word <+: name.toList
  /-- Each is shown as what it is. -/
  shown : ∀ c ∈ cs, ShownAs functions c.replacement c.shown

variable {functions : List String} {word : List Char}

/-- A name is a word if it starts with a letter; the names of operators do not. -/
theorem isWord_iff {name : String} :
    isWord name = true ↔ ∃ c rest, name.toList = c :: rest ∧ Unicode.isAlphabetic c = true := by
  unfold isWord
  cases name.toList with
  | nil => simp
  | cons c rest => simp

/-- The candidates are the known names. -/
theorem mem_replacements_candidates {name : String} :
    name ∈ (candidates functions).map Candidate.replacement ↔ IsKnown functions name := by
  unfold candidates IsKnown
  simp only [List.map_append, List.map_map, List.mem_append, List.mem_map, Function.comp_apply,
    List.mem_filter, isWord_iff, exists_eq_right, or_assoc]

/-- Names that are shown in one way hold at most one candidate of a name. -/
theorem find?_map {make : String → Candidate} (hmake : ∀ n, (make n).replacement = n)
    (name : String) (names : List String) :
    (names.map make).find? (fun c => c.replacement = name) =
      if name ∈ names then some (make name) else none := by
  induction names with
  | nil => rfl
  | cons n rest ih =>
    rw [List.map_cons, List.find?_cons, hmake, ih]
    by_cases hn : n = name
    · simp [hn]
    · simp [hn, Ne.symm hn]

/-- A macro and a keyword begin like words. -/
theorem isWord_of_mem {name : String} (h : name ∈ macroNames ∨ name ∈ keywords) :
    isWord name = true := by
  have hall : ∀ n ∈ macroNames ++ keywords, isWord n = true := by decide
  exact hall name (List.mem_append.mpr h)

/-- The first candidate of a name is shown as the name has to be. -/
theorem shownAs_of_find? {name : String} {c : Candidate}
    (h : (candidates functions).find? (fun d => d.replacement = name) = some c) :
    ShownAs functions name c.shown := by
  unfold candidates at h
  rw [List.find?_append, List.find?_append, find?_map fun _ => rfl, find?_map fun _ => rfl,
    find?_map fun _ => rfl] at h
  by_cases hfunction : name ∈ functions.filter isWord
  · rw [if_pos hfunction, Option.some_or, Option.some_or, Option.some.injEq] at h
    subst h
    have hmem : name ∈ functions := List.mem_of_mem_filter hfunction
    exact ⟨fun _ => rfl, fun hno => absurd hmem hno, fun hno => absurd hmem hno⟩
  · rw [if_neg hfunction, Option.none_or] at h
    -- A function of the name would have been found, since macros and keywords are words.
    have hno : name ∈ macroNames ∨ name ∈ keywords → name ∉ functions := fun hname hmem =>
      hfunction (List.mem_filter.mpr ⟨hmem, isWord_of_mem hname⟩)
    by_cases hmacro : name ∈ macroNames
    · rw [if_pos hmacro, Option.some_or, Option.some.injEq] at h
      subst h
      exact ⟨fun hmem => absurd hmem (hno (Or.inl hmacro)), fun _ _ => rfl,
        fun _ hne => absurd hmacro hne⟩
    · rw [if_neg hmacro, Option.none_or] at h
      by_cases hkeyword : name ∈ keywords
      · rw [if_pos hkeyword, Option.some.injEq] at h
        subst h
        exact ⟨fun hmem => absurd hmem (hno (Or.inr hkeyword)), fun _ hmem => absurd hmem hmacro,
          fun _ _ => rfl⟩
      · rw [if_neg hkeyword] at h
        cases h

/-- What is offered for a word that is not empty completes it. -/
theorem completes_sorted (functions : List String) (word : List Char) :
    Completes functions word
      (sorted ((candidates functions).filter fun c => word.isPrefixOf c.replacement.toList)) where
  increasing := List.pairwise_map.mpr (pairwise_sorted _)
  names name := by
    rw [mem_replacements_sorted, ← mem_replacements_candidates, List.mem_map, List.mem_map]
    simp only [List.mem_filter, List.isPrefixOf_iff_prefix]
    constructor
    · rintro ⟨c, ⟨hc, hprefix⟩, rfl⟩
      exact ⟨⟨c, hc, rfl⟩, hprefix⟩
    · rintro ⟨⟨c, hc, rfl⟩, hprefix⟩
      exact ⟨c, ⟨hc, hprefix⟩, rfl⟩
  shown c hc := by
    have hfirst := find?_of_mem_sorted hc
    have hprefix : word.isPrefixOf c.replacement.toList = true :=
      (List.mem_filter.mp (List.mem_of_find?_eq_some hfirst)).2
    -- The candidates of the name of this one all begin with the word, so it is the first of all.
    have hsame : ∀ d : Candidate,
        word.isPrefixOf d.replacement.toList = true ∧ d.replacement = c.replacement ↔
          d.replacement = c.replacement := by
      intro d
      refine and_iff_right_of_imp fun hd => ?_
      rw [hd]
      exact hprefix
    rw [List.find?_filter] at hfirst
    simp only [decide_eq_true_eq, hsame] at hfirst
    exact shownAs_of_find? hfirst

/-- Completion finds the longest word that ends at a place and offers the names that begin with it,
none if the word is empty. The names are those of the functions that begin like a word, of the
macros and of the keywords, each once and in order, and a function is what is shown of a name that
is also another's. -/
theorem complete?_eq_some {functions : List String} {line : String} {place start : Nat}
    {cs : List Candidate} (h : complete? functions line place = some (start, cs)) :
    ∃ before word after, line.toList = before ++ word ++ after ∧
      Text.byteLength before = start ∧ Text.byteLength (before ++ word) = place ∧
      (∀ c ∈ word, isWordChar c = true) ∧
      (∀ other, other <:+ before ++ word → (∀ c ∈ other, isWordChar c = true) → other <:+ word) ∧
      (word = [] → cs = []) ∧ (word ≠ [] → Completes functions word cs) := by
  unfold complete? at h
  simp only [Option.bind_eq_bind, Option.bind_eq_some_iff, Prod.exists, Option.pure_def,
    Option.some.injEq, Prod.mk.injEq] at h
  obtain ⟨text, after, hsplit, start', word, hword, rfl, rfl⟩ := h
  obtain ⟨hline, hplace⟩ := Text.eq_append_of_splitAt? hsplit
  -- The text up to the place ends in the word, and the word is the longest.
  obtain ⟨before, rfl, hstart, hchars, hlongest⟩ := exists_word hword
  refine ⟨before, word, after, hline, hstart, hplace, hchars, hlongest, ?_, ?_⟩
  · intro hempty
    rw [if_pos (List.isEmpty_iff.mpr hempty)]
  · intro hne
    rw [if_neg (mt List.isEmpty_iff.mp hne)]
    exact completes_sorted functions word

/-- A function hides the macro of its name, comes before another macro in order, and is not offered
under the name of an operator. -/
theorem complete?_eq_some_exists :
    complete? ["_+_", "size", "exists"] "[1].ex" 6 =
        some (4, [⟨"exists()", "exists"⟩, ⟨"macro exists_one", "exists_one"⟩]) ∧
      ∃ before word after, "[1].ex".toList = before ++ word ++ after ∧
        Text.byteLength before = 4 ∧ Text.byteLength (before ++ word) = 6 ∧
        (∀ c ∈ word, isWordChar c = true) ∧
        (∀ other, other <:+ before ++ word → (∀ c ∈ other, isWordChar c = true) →
          other <:+ word) ∧
        (word = [] → [⟨"exists()", "exists"⟩, ⟨"macro exists_one", "exists_one"⟩] =
          ([] : List Candidate)) ∧
        (word ≠ [] → Completes ["_+_", "size", "exists"] word
          [⟨"exists()", "exists"⟩, ⟨"macro exists_one", "exists_one"⟩]) := by
  have hsplit : Text.splitAt? 6 "[1].ex".toList = some ("[1].ex".toList, []) := by decide +kernel
  have hword : wordAtEnd? "[1].ex".toList = some (4, "ex".toList) := by decide +kernel
  have hcandidates : (candidates ["_+_", "size", "exists"]).filter
      (fun c => "ex".toList.isPrefixOf c.replacement.toList) =
        [⟨"exists()", "exists"⟩, ⟨"macro exists", "exists"⟩,
          ⟨"macro exists_one", "exists_one"⟩] := by
    decide +kernel
  -- They are in order as they come, so sorting leaves them.
  have hordered : [(⟨"exists()", "exists"⟩ : Candidate), ⟨"macro exists", "exists"⟩,
      ⟨"macro exists_one", "exists_one"⟩].Pairwise
        fun a b => decide (a.replacement ≤ b.replacement) = true := by
    decide +kernel
  have h : complete? ["_+_", "size", "exists"] "[1].ex" 6 =
      some (4, [⟨"exists()", "exists"⟩, ⟨"macro exists_one", "exists_one"⟩]) := by
    unfold complete?
    simp only [hsplit, hword, Option.bind_eq_bind, Option.bind_some, Option.pure_def]
    rw [if_neg (by decide), hcandidates, sorted, List.mergeSort_of_pairwise hordered]
    simp [dropRepeated]
  exact ⟨h, complete?_eq_some h⟩

/-! ## Where completion answers -/

/-- A text ends in a word, be it empty, that stands behind a separator of several bytes. -/
def EndsBehindWide (text : List Char) : Prop :=
  ∃ front separator word, text = front ++ separator :: word ∧ isWordChar separator = false ∧
    (∀ c ∈ word, isWordChar c = true) ∧ 1 < separator.utf8Size

/-- The separator before the last word of a text is met first when the word is passed over from the
end. -/
theorem dropWhile_reverse_separator {front word : List Char} {separator : Char}
    (hseparator : isWordChar separator = false) (hword : ∀ c ∈ word, isWordChar c = true) :
    (front ++ separator :: word).reverse.dropWhile isWordChar = separator :: front.reverse := by
  have hreverse : (front ++ separator :: word).reverse =
      word.reverse ++ separator :: front.reverse := by
    simp
  rw [hreverse, List.dropWhile_append_of_pos fun c hc => hword c (List.mem_reverse.mp hc),
    List.dropWhile_cons_of_neg (by simp [hseparator])]

/-- A word is found unless the separator before it is wider than the one byte allowed for it. -/
theorem wordAtEnd?_eq_none_iff {text : List Char} :
    wordAtEnd? text = none ↔ EndsBehindWide text := by
  constructor
  · intro h
    unfold wordAtEnd? at h
    dsimp only at h
    split at h
    · cases h
    · -- The word is searched from the end, so the separator is the first character that is none of
      -- it.
      next separator rest hrest =>
      split at h
      · cases h
      · next hsize =>
        have hreverse := List.takeWhile_append_dropWhile (p := isWordChar) (l := text.reverse)
        rw [hrest] at hreverse
        refine ⟨rest.reverse, separator, (text.reverse.takeWhile isWordChar).reverse, ?_, ?_, ?_,
          ?_⟩
        · rw [← List.reverse_inj, List.reverse_append, List.reverse_cons, List.reverse_reverse,
            List.reverse_reverse, List.append_assoc, List.singleton_append, hreverse]
        · have hhead := List.head?_dropWhile_not isWordChar text.reverse
          rw [hrest] at hhead
          exact hhead
        · intro c hc
          exact List.mem_takeWhile_imp (List.mem_reverse.mp hc)
        · have hpos := separator.utf8Size_pos
          omega
  · rintro ⟨front, separator, word, rfl, hseparator, hword, hwide⟩
    unfold wordAtEnd?
    dsimp only
    rw [dropWhile_reverse_separator hseparator hword]
    exact if_neg (Nat.ne_of_gt hwide)

/-- The word that is found begins at a place of the text, at its end if it is empty. -/
theorem start_of_wordAtEnd? {text word : List Char} {start : Nat} (after : List Char)
    (h : wordAtEnd? text = some (start, word)) :
    start ≤ Text.byteLength text ∧
      ∃ before, Text.splitAt? start (text ++ after) = some (before, word ++ after) := by
  obtain ⟨before, rfl, rfl, -, -⟩ := exists_word h
  refine ⟨?_, before, ?_⟩
  · rw [Text.byteLength_append]
    exact Nat.le_add_right _ _
  · rw [List.append_assoc]
    exact Text.splitAt?_byteLength before (word ++ after)

/-- The answer is where the word before the place begins, with what is offered for it. -/
theorem complete?_of_splitAt? {functions : List String} {line : String} {place : Nat}
    {text after : List Char} (h : Text.splitAt? place line.toList = some (text, after)) :
    complete? functions line place = (wordAtEnd? text).map fun found => (found.1,
      if found.2.isEmpty then []
      else sorted ((candidates functions).filter fun c =>
        found.2.isPrefixOf c.replacement.toList)) := by
  rw [complete?, h, Option.bind_eq_bind, Option.bind_some]
  dsimp only
  cases wordAtEnd? text <;> rfl

/-- At every place of a line completion answers with a place of the line where the word begins, and
that is not behind the given one, unless the word stands behind a separator of several bytes: then
one byte behind the start of the separator is inside of it, and there is no answer. -/
theorem complete?_answers_unless_wide {functions : List String} {line : String} {place : Nat}
    {text after : List Char} (h : Text.splitAt? place line.toList = some (text, after)) :
    (¬ EndsBehindWide text → ∃ start cs before rest,
        complete? functions line place = some (start, cs) ∧ start ≤ place ∧
          Text.splitAt? start line.toList = some (before, rest)) ∧
      (EndsBehindWide text → complete? functions line place = none) := by
  obtain ⟨hline, hplace⟩ := Text.eq_append_of_splitAt? h
  constructor
  · intro hnarrow
    cases hfound : wordAtEnd? text with
    | none => exact absurd (wordAtEnd?_eq_none_iff.mp hfound) hnarrow
    | some found =>
      obtain ⟨start, word⟩ := found
      obtain ⟨hle, before, hsplit⟩ := start_of_wordAtEnd? after hfound
      rw [hplace] at hle
      rw [← hline] at hsplit
      -- What is found in the text up to the place is found in the line.
      have hanswer : complete? functions line place = _ := complete?_of_splitAt? h
      rw [hfound, Option.map_some] at hanswer
      exact ⟨start, _, before, word ++ after, hanswer, hle, hsplit⟩
  · intro hwide
    rw [complete?_of_splitAt? h, wordAtEnd?_eq_none_iff.mpr hwide, Option.map_none]

/-- A sign of three bytes that is not right before the word is no hindrance: the word is found
behind the space, and completed. -/
theorem complete?_answers_unless_wide_space :
    Text.splitAt? 6 "€ in".toList = some ("€ in".toList, []) ∧
      ¬ EndsBehindWide "€ in".toList ∧
      complete? [] "€ in" 6 = some (4, [⟨"in", "in"⟩]) ∧
      4 ≤ 6 ∧ ∃ before rest, Text.splitAt? 4 "€ in".toList = some (before, rest) := by
  have hsplit : Text.splitAt? 6 "€ in".toList = some ("€ in".toList, []) := by decide +kernel
  have hword : wordAtEnd? "€ in".toList = some (4, "in".toList) := by decide +kernel
  have hcandidates : (candidates []).filter (fun c => "in".toList.isPrefixOf c.replacement.toList) =
      [⟨"in", "in"⟩] := by
    decide +kernel
  have hnarrow : ¬ EndsBehindWide "€ in".toList := by
    rw [← wordAtEnd?_eq_none_iff, hword]
    exact Option.some_ne_none _
  have hanswer : complete? [] "€ in" 6 = some (4, [⟨"in", "in"⟩]) := by
    rw [complete?_of_splitAt? hsplit, hword, Option.map_some, if_neg (by decide), hcandidates,
      sorted, List.mergeSort_singleton, dropRepeated]
  obtain ⟨start, cs, before, rest, hcomplete, hle, hstart⟩ :=
    (complete?_answers_unless_wide hsplit).1 hnarrow
  -- The answer of the general statement is the one above, so its start is.
  rw [hanswer, Option.some.injEq, Prod.mk.injEq] at hcomplete
  obtain ⟨rfl, -⟩ := hcomplete
  exact ⟨hsplit, hnarrow, hanswer, hle, before, rest, hstart⟩

/-- Behind a sign of three bytes a word is not completed, although it ends at a place of the
line. -/
theorem not_complete?_behind_wide :
    ¬ ∀ (functions : List String) (line : String) (place : Nat) (text after : List Char),
      Text.splitAt? place line.toList = some (text, after) →
        ∃ start cs, complete? functions line place = some (start, cs) := by
  intro h
  have hsplit : Text.splitAt? 5 "€in".toList = some ("€in".toList, []) := by decide +kernel
  have hnone : complete? [] "€in" 5 = none := by decide +kernel
  obtain ⟨start, cs, hsome⟩ := h [] "€in" 5 _ _ hsplit
  rw [hnone] at hsome
  cases hsome

end Completion

end CelShell
