import CelShell.Proofs.Expr.Pieces
import CelShell.Proofs.Grammar.RoundTrip
import CelShell.Proofs.Token.Locality

/-!
# The tokens of the pieces of a text

A chain of pieces whose names and constants can be read is read as the tokens of its pieces
(`Piece.lexes_of_isChain`), with no regard to whether the pieces are those of an expression. So the
tokens of a printed text with some parentheses left out are those that are left.
-/

namespace CelShell

open Scan

namespace Literal

/-- The constant of the other sign. -/
def opposite : Literal → Literal
  | int n => int (-n)
  | double d => double d.neg
  | v => v

/-- The tokens of a constant: a sign is one of its own. -/
def kinds (v : Literal) : List Kind :=
  if v.isNegative then [.symbol .minus, .literal v.opposite] else [.literal v]

/-- A constant with a sign is written as the sign and a constant without one. -/
theorem opposite_of_isNegative {v : Literal} (hv : v.IsWritable) (hsign : v.isNegative = true) :
    v.opposite.IsWritable ∧ v.opposite.isNegative = false ∧ v.text = "-" ++ v.opposite.text := by
  obtain ⟨v', hv', hsign', htext, hneg⟩ := Grammar.exists_opposite hv hsign
  -- The opposite of the opposite is the constant itself.
  have heq : v.opposite = v' := by
    cases v' with
    | int n =>
      rw [Grammar.negation, if_neg hv'] at hneg
      obtain rfl := (Expr.literal.inj hneg).2
      rw [opposite, Int64.neg_neg]
    | double d =>
      obtain rfl := (Expr.literal.inj hneg).2
      simp [opposite, Double.neg]
    | _ => cases hneg
  rw [heq]
  exact ⟨hv', hsign', htext⟩

end Literal

namespace Piece

variable {p : Piece} {ps rest : List Piece}

/-- The tokens of a piece. -/
def kinds : Piece → List Kind
  | opening => [.symbol .leftParen]
  | closing => [.symbol .rightParen]
  | name s => [.ident s]
  | constant v => v.kinds
  | keywordIn => [.keywordIn]
  | symbol s => [.symbol s]
  | space => []

/-- The tokens of some pieces. -/
def kindsOf (ps : List Piece) : List Kind := ps.flatMap kinds

/-- The tokens of pieces after others come after theirs. -/
theorem kindsOf_append (ps qs : List Piece) : kindsOf (ps ++ qs) = kindsOf ps ++ kindsOf qs :=
  List.flatMap_append

/-- The tokens of pieces in parentheses. -/
theorem kindsOf_parenthesized (ps : List Piece) :
    kindsOf (.opening :: (ps ++ [.closing])) =
      .symbol .leftParen :: (kindsOf ps ++ [.symbol .rightParen]) := by
  rw [kindsOf, List.flatMap_cons, List.flatMap_append]
  rfl

/-- The tokens of one constant. -/
theorem kindsOf_constant (v : Literal) : kindsOf [.constant v] = v.kinds := List.append_nil _

/-- A piece that is no name and no constant, or one that can be read. -/
def IsReadable : Piece → Prop
  | name s => IsName s
  | constant v => v.IsWritable
  | _ => True

/-- Pieces that start with a mark are written as a text that does. -/
theorem Follows.boundary (h : Follows rest) (hread : ∀ p ∈ rest, p.IsReadable) :
    Boundary (textOf rest).toList := by
  cases rest with
  | nil => exact .finish
  | cons q rest =>
    have hmark := h.mark q rfl
    rw [textOf, String.toList_append]
    cases q with
    | space | closing => exact .mark (by decide)
    | symbol s =>
      cases s with
      | dot =>
        refine .point ?_
        -- Only a name stands behind a point.
        cases rest with
        | nil => exact Text.stops_nil
        | cons q rest =>
          obtain ⟨name, rfl⟩ := (List.isChain_cons_cons.1 h.chain).1
          rw [textOf, String.toList_append]
          exact stops_isDigit_of_isName (hread (.name name) (by simp)) _
      | leftParen | rightParen | leftBracket | rightBracket | rightBrace | comma | colon =>
        exact .mark (by decide)
      | _ => cases hmark
    | _ => cases hmark

/-- No expression starts with the operator of two equality signs. -/
theorem exists_kinds_of_isStart (h : p.isStart = true) :
    ∃ k ks, p.kinds = k :: ks ∧ k ≠ .symbol .equals := by
  cases p with
  | constant v =>
    rw [kinds, Literal.kinds]
    split
    · exact ⟨_, _, rfl, by decide⟩
    · exact ⟨_, _, rfl, by simp⟩
  | symbol s => exact ⟨_, _, rfl, by rintro ⟨⟩; cases h⟩
  | name s => exact ⟨_, _, rfl, by simp⟩
  | opening => exact ⟨_, _, rfl, by decide⟩
  | _ => cases h

/-- What may stand behind an exclamation mark makes no other symbol of it. -/
theorem alone_not_of_isStart (hstart : ∀ q ∈ rest.head?, q.isStart = true)
    (h : Lexes (textOf rest).toList (kindsOf rest)) : Alone .not (textOf rest).toList := by
  cases rest with
  | nil => exact fun t ht => by cases ht
  | cons q rest =>
    obtain ⟨k, ks, hkinds, hk⟩ := exists_kinds_of_isStart (hstart q rfl)
    rw [kindsOf, List.flatMap_cons, hkinds] at h
    exact h.alone_not hk

/-- A chain of pieces is read as the tokens of its pieces. -/
theorem lexes_of_isChain (hchain : ps.IsChain Precedes) (hread : ∀ p ∈ ps, p.IsReadable) :
    Lexes (textOf ps).toList (kindsOf ps) := by
  induction ps with
  | nil => exact .done rfl
  | cons p rest ih =>
    obtain ⟨hp, hrest⟩ := List.forall_mem_cons.1 hread
    obtain ⟨hnext, hchain⟩ := List.isChain_cons.1 hchain
    have hlexes := ih hchain hrest
    -- A word or a number ends where a mark comes next.
    have hboundary : (∀ q ∈ rest.head?, q.isMark = true) → Boundary (textOf rest).toList :=
      fun hmark => Follows.boundary ⟨hchain, hmark⟩ hrest
    rw [textOf, String.toList_append]
    cases p with
    | opening => exact lexes_symbol .leftParen trivial hlexes
    | closing => exact lexes_symbol .rightParen trivial hlexes
    | name s => exact spells_name hp (hboundary hnext) hlexes
    | keywordIn =>
      exact spells_word (s := ['i', 'n']) (isWord_of_all (by decide) (by decide))
        (hboundary hnext) hlexes
    | space => exact lexes_space hlexes
    | constant v =>
      rw [text, kindsOf, List.flatMap_cons, kinds, Literal.kinds]
      split
      · next hsign =>
        obtain ⟨hv, hplain, htext⟩ := Literal.opposite_of_isNegative hp hsign
        rw [htext, String.toList_append, List.append_assoc]
        exact lexes_symbol .minus trivial
          (Grammar.spells_literal hv hplain (hboundary hnext) hlexes)
      · next hsign =>
        exact Grammar.spells_literal hp (Bool.eq_false_iff.2 hsign) (hboundary hnext) hlexes
    | symbol s =>
      -- Only the symbols that begin a longer one depend on what follows.
      have halone : Alone s (textOf rest).toList := by
        cases s with
        | less | greater | slash => exact (hboundary hnext).alone _
        | not => exact alone_not_of_isStart hnext hlexes
        | _ => trivial
      exact lexes_symbol s halone hlexes

end Piece

end CelShell
