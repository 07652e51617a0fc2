import Mathlib.Data.List.TakeWhile
import CelShell.Token.Lexer

/-!
# Lexing as a relation

Which kinds of tokens a text spells, without their places: each token is read off the front of what
layout leaves, and the next one from where it ends. The list of tokens of a text is this relation
with the places added. What comes out of a text is well formed: names are words and not keywords,
and a number is one that the printer can write, since its magnitude fits its type.
-/

namespace CelShell

namespace Scan

/-- A text spells kinds of tokens, the end mark not counted. -/
inductive Lexes : List Char → List Kind → Prop where
  | done {s : List Char} : skipLayout false s = [] → Lexes s []
  | token {s text rest : List Char} {c : Char} {k : Kind} {ks : List Kind} :
      skipLayout false s = c :: text → token c text = (.ok k, rest) → Lexes rest ks →
      Lexes s (k :: ks)

variable {c : Char} {s rest : List Char} {k : Kind} {ks : List Kind}

/-- The tokens of a text that spells kinds have those kinds, wherever the text starts. -/
theorem Lexes.exists_listFrom (h : Lexes s ks) (p : Position) :
    ∃ tokens, Token.listFrom p s = .ok tokens ∧ tokens.map Token.kind = ks ++ [.eof] := by
  induction h generalizing p with
  | done hlayout =>
    rw [Token.listFrom]
    split
    · exact ⟨_, rfl, rfl⟩
    · rename_i heq
      rw [hlayout] at heq
      cases heq
  | @token s text rest c k ks hlayout htoken _ ih =>
    rw [Token.listFrom]
    split
    · rename_i heq
      rw [hlayout] at heq
      cases heq
    · rename_i c' text' heq
      rw [hlayout, List.cons.injEq] at heq
      obtain ⟨rfl, rfl⟩ := heq
      dsimp only
      split
      · rename_i hread
        rw [htoken, Prod.mk.injEq] at hread
        cases hread.1
      · rename_i k' rest' hread
        rw [htoken, Prod.mk.injEq, Except.ok.injEq] at hread
        obtain ⟨rfl, rfl⟩ := hread
        -- The other tokens are read from where this one ends.
        obtain ⟨tokens, hlist, hkinds⟩ := ih
          (Token.positionBefore rest (Token.positionBefore (c :: text) p s) (c :: text))
        rw [hlist]
        exact ⟨_, rfl, by rw [List.map_cons, hkinds]; rfl⟩

/-- The tokens of a text end in a mark, and the text spells the kinds before it. -/
theorem lexes_of_listFrom {p : Position} {tokens : List Token}
    (h : Token.listFrom p s = .ok tokens) :
    ∃ ks, tokens.map Token.kind = ks ++ [.eof] ∧ Lexes s ks := by
  -- Layout may be of any length, so the induction is on the length of the text.
  induction hn : s.length using Nat.strong_induction_on generalizing p s tokens with
  | _ n ih =>
    rw [Token.listFrom] at h
    split at h
    · rename_i hlayout
      rw [Except.ok.injEq] at h
      exact ⟨[], by rw [← h]; rfl, .done hlayout⟩
    · rename_i c text hlayout
      dsimp only at h
      split at h
      · cases h
      · rename_i k rest hread
        have hlength : rest.length < n := by
          have hskip := skipLayout_length_le false s
          have htoken := token_length_le c text
          rw [hlayout, List.length_cons] at hskip
          rw [hread] at htoken
          dsimp only at htoken
          omega
        cases hrest : Token.listFrom
            (Token.positionBefore rest (Token.positionBefore (c :: text) p s) (c :: text)) rest with
        | error e => rw [hrest] at h; cases h
        | ok tokens' =>
          obtain ⟨ks, hkinds, hlexes⟩ := ih rest.length hlength hrest rfl
          rw [hrest] at h
          refine ⟨k :: ks, ?_, .token hlayout hread hlexes⟩
          cases h
          rw [List.map_cons, hkinds]
          rfl

end Scan

/-! ## Well-formed tokens -/

/-- A name as the lexer reads one: a word that is no keyword. -/
def IsName (name : String) : Prop :=
  (∃ c s, name.toList = c :: s ∧ Unicode.isIdentifierStart c = true ∧
    ∀ d ∈ s, Unicode.isIdentifierContinue d = true) ∧
  Scan.wordKind name = .ident name

/-- A constant that the printer can write: the least int has no text, since its magnitude is no int,
and infinity and NaN have none either. -/
def Literal.IsWritable : Literal → Prop
  | .int n => n ≠ Int64.minValue
  | .double d => d.isFinite = true
  | _ => True

/-- A token as it comes out of a text: its name or its constant is one that has a text, and it is
not the end mark. -/
def Kind.IsReadable : Kind → Prop
  | .ident name => IsName name
  | .literal value => value.IsWritable
  | .eof => False
  | _ => True

namespace Scan

variable {c : Char} {s rest : List Char} {k : Kind} {ks : List Kind}

/-- An integer constant is not the least int: it has no sign. -/
theorem isWritable_of_integer? {unsigned : Bool} {n : Nat} {value : Literal}
    (h : integer? unsigned n = some value) : value.IsWritable := by
  cases unsigned with
  | true =>
    rw [integer?, if_pos rfl] at h
    obtain ⟨m, _, rfl⟩ := Option.map_eq_some_iff.1 h
    trivial
  | false =>
    rw [integer?, if_neg Bool.false_ne_true] at h
    obtain ⟨m, hm, rfl⟩ := Option.map_eq_some_iff.1 h
    unfold Number.int64? at hm
    split at hm
    · rename_i hrange
      rw [Option.some.injEq] at hm
      subst hm
      -- What is read is not negative, and the least int is.
      have hn : (Int64.ofInt n).toInt = n := Int64.toInt_ofInt_of_le (by omega) (by omega)
      intro hmin
      rw [hmin, Int64.toInt_minValue] at hn
      omega
    · cases hm

/-- A number that is read can be written, if what it is read from gives such constants only. -/
theorem isReadable_of_numberOr {text : List Char} {value? : Option Literal}
    (hvalue : ∀ v, value? = some v → v.IsWritable) (h : numberOr text value? = .ok k) :
    k.IsReadable := by
  cases value? with
  | none => cases h
  | some v =>
    cases h
    exact hvalue v rfl

/-- A double that is read is finite. -/
theorem isWritable_of_finite? {text : List Char} {v : Literal}
    (h : (finite? text).map .double = some v) : v.IsWritable := by
  obtain ⟨d, hd, rfl⟩ := Option.map_eq_some_iff.1 h
  exact (Option.filter_eq_some_iff.1 hd).2

/-- A hexadecimal number that is read can be written. -/
theorem isReadable_of_hexNumber (h : hexNumber s = (.ok k, rest)) : k.IsReadable := by
  unfold hexNumber at h
  dsimp only at h
  rw [Prod.mk.injEq] at h
  refine isReadable_of_numberOr (fun v hv => ?_) h.1
  split at hv
  · cases hv
  · exact isWritable_of_integer? hv

/-- A decimal number that is read can be written. -/
theorem isReadable_of_decimalNumber (h : decimalNumber s = (.ok k, rest)) : k.IsReadable := by
  unfold decimalNumber at h
  dsimp only at h
  split at h
  · rw [Prod.mk.injEq] at h
    exact isReadable_of_numberOr (fun v hv => isWritable_of_integer? hv) h.1
  · rw [Prod.mk.injEq] at h
    exact isReadable_of_numberOr (fun v hv => isWritable_of_finite? hv) h.1

/-- A string that is read can be written. -/
theorem isReadable_of_string {quote : Char} {raw : Bool} (h : string quote raw s = (.ok k, rest)) :
    k.IsReadable := by
  unfold string at h
  dsimp only at h
  rw [Prod.mk.injEq] at h
  cases hread : (stringFrom quote raw [] s).1 with
  | error e => rw [hread] at h; cases h.1
  | ok text => rw [hread] at h; cases h.1; trivial

/-- A word is a name, or else a keyword or a constant. -/
theorem isReadable_wordKind (hc : Unicode.isIdentifierStart c = true)
    (hs : ∀ d ∈ s, Unicode.isIdentifierContinue d = true) :
    (wordKind (String.ofList (c :: s))).IsReadable := by
  by_cases hname : wordKind (String.ofList (c :: s)) = .ident (String.ofList (c :: s))
  · rw [hname]
    exact ⟨⟨c, s, String.toList_ofList, hc, hs⟩, hname⟩
  · unfold wordKind at hname ⊢
    split_ifs at hname ⊢ <;> trivial

/-- A token that is read can be written. -/
theorem isReadable_of_tokenAt {text : List Char} (h : token.tokenAt c text = (.ok k, rest)) :
    k.IsReadable := by
  unfold token.tokenAt at h
  -- A word, a number, a string or a symbol: the first character decides.
  split at h
  · rename_i hc
    rw [Prod.mk.injEq, Except.ok.injEq] at h
    obtain ⟨rfl, -⟩ := h
    exact isReadable_wordKind hc fun d hd => List.mem_takeWhile_imp hd
  · split at h
    · exact isReadable_of_decimalNumber h
    · split at h
      · exact isReadable_of_string h
      · split at h
        · rw [Prod.mk.injEq, Except.ok.injEq] at h
          obtain ⟨rfl, -⟩ := h
          trivial
        · rw [Prod.mk.injEq] at h
          cases h.1

/-- Whatever token is read off a text is well formed. -/
theorem isReadable_of_token {text : List Char} (h : token c text = (.ok k, rest)) :
    k.IsReadable := by
  unfold token at h
  split at h
  · split at h
    · exact isReadable_of_string h
    · split at h
      · exact isReadable_of_hexNumber h
      · exact isReadable_of_tokenAt h
  · exact isReadable_of_tokenAt h

/-- Every token of a text is well formed. -/
theorem Lexes.isReadable (h : Lexes s ks) : ∀ k ∈ ks, k.IsReadable := by
  induction h with
  | done => exact List.forall_mem_nil _
  | token _ htoken _ ih => exact List.forall_mem_cons.2 ⟨isReadable_of_token htoken, ih⟩

end Scan

end CelShell
