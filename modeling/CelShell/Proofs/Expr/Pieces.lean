import Mathlib.Data.List.Chain
import CelShell.Proofs.Expr.Text

/-!
# The pieces of a printed expression

The canonical text of an expression, taken apart into names, constants, symbols and spaces
(`Expr.textOf_pieces`). The parentheses around an operand are pieces of their own kind, other than
those of a call, so that a text can be looked at with some of them left out.

Which pieces may stand beside each other is a matter of the two alone: a name ends before a mark, an
operand starts behind an opening parenthesis. The pieces of an expression are such a chain
(`Expr.isChain_pieces`), and they remain one without a parenthesis (`Piece.isChain_erase`).
-/

namespace CelShell

/-- A piece of the text of an expression. -/
inductive Piece where
  /-- The parenthesis before an operand. -/
  | opening
  /-- The parenthesis behind an operand. -/
  | closing
  /-- A name. -/
  | name (name : String)
  /-- A constant, with its sign. -/
  | constant (value : Literal)
  /-- The keyword `in`. -/
  | keywordIn
  /-- An operator, or a delimiter other than the parentheses of an operand. -/
  | symbol (symbol : Symbol)
  /-- A space. -/
  | space
  deriving DecidableEq

namespace Piece

/-- How a piece is written. -/
def text : Piece → String
  | opening => "("
  | closing => ")"
  | name s => s
  | constant v => v.text
  | keywordIn => "in"
  | symbol s => s.text
  | space => " "

/-- The text of some pieces. -/
def textOf : List Piece → String
  | [] => ""
  | p :: rest => p.text ++ textOf rest

/-- An operand, in parentheses if a construct binds looser than its place demands. -/
def group (binding demanded : Nat) (ps : List Piece) : List Piece :=
  if binding < demanded then opening :: (ps ++ [closing]) else ps

/-- Pieces with a comma and a space between them. -/
def separated : List (List Piece) → List Piece
  | [] => []
  | [ps] => ps
  | ps :: rest => ps ++ symbol .comma :: space :: separated rest

/-- A call of a name. -/
def call (function : String) (args : List (List Piece)) : List Piece :=
  name function :: symbol .leftParen :: (separated args ++ [symbol .rightParen])

/-- The piece of an operator with two operands. -/
def ofBinary : BinaryOp → Piece
  | .or => symbol .or
  | .and => symbol .and
  | .equals => symbol .equals
  | .notEquals => symbol .notEquals
  | .less => symbol .less
  | .lessEquals => symbol .lessEquals
  | .greater => symbol .greater
  | .greaterEquals => symbol .greaterEquals
  | .member => keywordIn
  | .add => symbol .plus
  | .subtract => symbol .minus
  | .multiply => symbol .star
  | .divide => symbol .slash
  | .modulo => symbol .percent

/-- The piece of an operator with one operand. -/
def ofUnary : UnaryOp → Piece
  | .not => symbol .not
  | .negate => symbol .minus

end Piece

namespace Expr

open Piece (group separated ofBinary ofUnary)

variable {α : Type}

mutual

/-- The pieces of the canonical text of an expression. -/
def pieces : Expr α → List Piece
  | ident _ name => [.name name]
  | literal _ value => [.constant value]
  | select _ operand field testOnly =>
    let selected := group operand.binding Binding.member operand.pieces
      ++ [.symbol .dot, .name field]
    if testOnly then Piece.call "has" [selected] else selected
  | call _ function args =>
    match args with
    | [a, b] =>
      match BinaryOp.ofFunction? function with
      | some op =>
        group a.binding op.binding a.pieces
          ++ .space :: ofBinary op :: .space :: group b.binding (op.binding + 1) b.pieces
      | none =>
        if function = Operator.index then
          group a.binding Binding.member a.pieces
            ++ .symbol .leftBracket :: (b.pieces ++ [.symbol .rightBracket])
        else Piece.call function (piecesOf [a, b])
    | [a] =>
      match UnaryOp.ofFunction? function with
      | some op => ofUnary op :: group a.binding Binding.unary a.pieces
      | none => Piece.call function [a.pieces]
    | [a, b, c] =>
      if function = Operator.conditional then
        group a.binding Binding.or a.pieces ++ .space :: .symbol .question :: .space ::
          (group b.binding Binding.or b.pieces ++ .space :: .symbol .colon :: .space :: c.pieces)
      else Piece.call function (piecesOf [a, b, c])
    | args => Piece.call function (piecesOf args)
  | invoke _ target function args =>
    group target.binding Binding.member target.pieces
      ++ .symbol .dot :: Piece.call function (piecesOf args)
  | list _ elements =>
    .symbol .leftBracket :: (separated (piecesOf elements) ++ [.symbol .rightBracket])
  | map _ entries =>
    .symbol .leftBrace :: (separated (piecesOfEntries entries) ++ [.symbol .rightBrace])
  | comprehension _ loop var range body =>
    group range.binding Binding.member range.pieces
      ++ .symbol .dot :: Piece.call loop.name [[.name var], body.pieces]

/-- The pieces of each of some expressions. -/
def piecesOf : List (Expr α) → List (List Piece)
  | [] => []
  | e :: rest => e.pieces :: piecesOf rest

/-- The pieces of each of some entries. -/
def piecesOfEntries : List (Expr α × Expr α) → List (List Piece)
  | [] => []
  | (k, v) :: rest => (k.pieces ++ .symbol .colon :: .space :: v.pieces) :: piecesOfEntries rest

end

end Expr

/-! ## The text of the pieces -/

namespace Piece

/-- The text of pieces in a row is the texts in a row. -/
theorem textOf_append (ps qs : List Piece) : textOf (ps ++ qs) = textOf ps ++ textOf qs := by
  induction ps with
  | nil => exact String.empty_append.symm
  | cons p rest ih => rw [List.cons_append, textOf, textOf, ih, String.append_assoc]

/-- A group is written in parentheses where the text of an operand is. -/
theorem textOf_group (binding demanded : Nat) (ps : List Piece) :
    textOf (group binding demanded ps) = Expr.parenthesize binding demanded (textOf ps) := by
  unfold group Expr.parenthesize
  split
  · rw [textOf, textOf_append, textOf, textOf, String.append_empty, ← String.append_assoc]
    rfl
  · rfl

/-- Pieces with separators between them are written as texts with commas between them. -/
theorem textOf_separated (pss : List (List Piece)) :
    textOf (separated pss) = ", ".intercalate (pss.map textOf) := by
  induction pss with
  | nil => rfl
  | cons ps rest ih =>
    cases rest with
    | nil => simp [separated]
    | cons qs rest =>
      rw [separated, textOf_append, textOf, textOf, ih]
      · apply String.toList_injective
        simp [text, Symbol.text]
      · simp

/-- The text of a call is its name with the texts of the arguments in parentheses. -/
theorem textOf_call (function : String) (args : List (List Piece)) :
    textOf (call function args) = function ++ "(" ++ ", ".intercalate (args.map textOf) ++ ")" := by
  simp [call, textOf, textOf_append, textOf_separated, text, Symbol.text, String.append_assoc]

/-- The piece of an operator with two operands is written as the operator. -/
theorem text_ofBinary (op : BinaryOp) : (ofBinary op).text = op.text := by
  cases op <;> rfl

/-- The piece of an operator with one operand is written as the operator. -/
theorem text_ofUnary (op : UnaryOp) : (ofUnary op).text = op.text := by
  cases op <;> rfl

end Piece

namespace Expr

open Piece (group separated ofBinary ofUnary textOf textOf_append textOf_group textOf_separated
  textOf_call text_ofBinary text_ofUnary)

variable {α : Type}

mutual

/-- The pieces of an expression are those of its text. -/
theorem textOf_pieces : (e : Expr α) → textOf e.pieces = e.text
  | ident _ name => by
    rw [pieces, text, textOf, textOf, String.append_empty]
    rfl
  | literal _ value => by
    rw [pieces, text, textOf, textOf, String.append_empty]
    rfl
  | select _ operand field testOnly => by
    -- A test writes the selection as the argument of a call.
    have hselected : textOf (group operand.binding Binding.member operand.pieces
        ++ [.symbol .dot, .name field]) =
          parenthesize operand.binding Binding.member operand.text ++ "." ++ field := by
      simp [textOf_append, textOf_group, textOf_pieces operand, textOf, Piece.text, Symbol.text,
        String.append_assoc]
    rw [pieces, text]
    cases testOnly with
    | false => exact hselected
    | true =>
      simp only [if_true, textOf_call, List.map_singleton, String.intercalate_singleton, hselected]
      rfl
  | call _ function args => by
    have hargs := map_textOf_piecesOf args
    -- The operators have one, two or three operands, so the case is told by the number of
    -- arguments.
    match args with
    | [] =>
      rw [pieces, text, textOf_call, hargs]
      all_goals simp
    | [a] =>
      have ha := textOf_pieces a
      rw [pieces, text]
      cases UnaryOp.ofFunction? function with
      | some op => simp only [textOf, text_ofUnary, textOf_group, ha]
      | none => simp only [textOf_call, List.map_singleton, String.intercalate_singleton, ha]
    | [a, b] =>
      have ha := textOf_pieces a
      have hb := textOf_pieces b
      rw [pieces, text]
      cases BinaryOp.ofFunction? function with
      | some op =>
        simp only [textOf_append, textOf, text_ofBinary, textOf_group, ha, hb, String.append_assoc]
        rfl
      | none =>
        dsimp only
        split
        · simp only [textOf_append, textOf, textOf_group, ha, hb, Piece.text, Symbol.text,
            String.append_assoc, String.append_empty]
        · rw [textOf_call, hargs]
    | [a, b, c] =>
      have ha := textOf_pieces a
      have hb := textOf_pieces b
      have hc := textOf_pieces c
      rw [pieces, text]
      split
      · apply String.toList_injective
        simp [textOf_append, textOf, textOf_group, ha, hb, hc, Piece.text, Symbol.text]
      · rw [textOf_call, hargs]
    | a :: b :: c :: d :: args =>
      rw [pieces, text, textOf_call, hargs]
      all_goals simp
  | invoke _ target function args => by
    simp [pieces, text, textOf_append, textOf_group, textOf_pieces target, textOf, textOf_call,
      map_textOf_piecesOf args, Piece.text, Symbol.text, String.append_assoc]
  | list _ elements => by
    simp [pieces, text, textOf, textOf_append, textOf_separated, map_textOf_piecesOf elements,
      Piece.text, Symbol.text, String.append_assoc]
  | map _ entries => by
    simp [pieces, text, textOf, textOf_append, textOf_separated,
      map_textOf_piecesOfEntries entries, Piece.text, Symbol.text, String.append_assoc]
  | comprehension _ loop var range body => by
    simp [pieces, text, textOf_append, textOf_group, textOf_pieces range, textOf_pieces body,
      textOf, textOf_call, Piece.text, Symbol.text, String.append_assoc]

/-- The pieces of expressions are written as their texts. -/
theorem map_textOf_piecesOf : (es : List (Expr α)) → (piecesOf es).map textOf = textsOf es
  | [] => rfl
  | e :: rest => by
    rw [piecesOf, List.map_cons, textOf_pieces e, map_textOf_piecesOf rest, textsOf]

/-- The pieces of entries are written as their texts. -/
theorem map_textOf_piecesOfEntries :
    (es : List (Expr α × Expr α)) → (piecesOfEntries es).map textOf = textsOfEntries es
  | [] => rfl
  | (k, v) :: rest => by
    rw [piecesOfEntries, List.map_cons, map_textOf_piecesOfEntries rest, textsOfEntries,
      textOf_append, textOf_pieces k, textOf, textOf, textOf_pieces v]
    congr 1
    apply String.toList_injective
    simp [Piece.text, Symbol.text]

end

/-! ### Lists -/

/-- The pieces of expressions, one expression after the other. -/
theorem piecesOf_eq (es : List (Expr α)) : piecesOf es = es.map pieces := by
  induction es with
  | nil => rfl
  | cons e rest ih => rw [piecesOf, ih, List.map_cons]

/-- The pieces of an entry. -/
def piecesOfEntry (entry : Expr α × Expr α) : List Piece :=
  entry.1.pieces ++ .symbol .colon :: .space :: entry.2.pieces

/-- The pieces of entries, one entry after the other. -/
theorem piecesOfEntries_eq (es : List (Expr α × Expr α)) :
    piecesOfEntries es = es.map piecesOfEntry := by
  induction es with
  | nil => rfl
  | cons e rest ih => rw [piecesOfEntries, ih, List.map_cons, piecesOfEntry]

/-! ### Operators and calls -/

/-- The pieces of an operator between operands. The right one has to bind tighter. -/
theorem pieces_binary (op : BinaryOp) (l r : Expr α) (m : α) :
    (call m op.function [l, r]).pieces =
      group l.binding op.binding l.pieces
        ++ .space :: ofBinary op :: .space :: group r.binding (op.binding + 1) r.pieces := by
  have hop : BinaryOp.ofFunction? op.function = some op := by cases op <;> decide
  rw [pieces]
  simp only [hop]

/-- The pieces of an operator before its operand. -/
theorem pieces_unary (op : UnaryOp) (e : Expr α) (m : α) :
    (call m op.function [e]).pieces = ofUnary op :: group e.binding Binding.unary e.pieces := by
  have hop : UnaryOp.ofFunction? op.function = some op := by cases op <;> decide
  rw [pieces]
  simp only [hop]

/-- The pieces of an index. The brackets take any expression. -/
theorem pieces_index (e i : Expr α) (m : α) :
    (call m Operator.index [e, i]).pieces =
      group e.binding Binding.member e.pieces
        ++ .symbol .leftBracket :: (i.pieces ++ [.symbol .rightBracket]) := by
  have hop : BinaryOp.ofFunction? Operator.index = none := by decide
  rw [pieces]
  simp only [hop, if_true]

/-- The pieces of a conditional. Only its last part may be a conditional without parentheses. -/
theorem pieces_conditional (c t e : Expr α) (m : α) :
    (call m Operator.conditional [c, t, e]).pieces =
      group c.binding Binding.or c.pieces ++ .space :: .symbol .question :: .space ::
        (group t.binding Binding.or t.pieces ++ .space :: .symbol .colon :: .space ::
          e.pieces) := by
  rw [pieces]
  simp only [if_true]

/-- A call of a name is written with its arguments in brackets. -/
theorem pieces_call {name : String} (h : IsName name) (args : List (Expr α)) (m : α) :
    (call m name args).pieces = Piece.call name (piecesOf args) := by
  obtain ⟨hbinary, hunary, hindex, hconditional⟩ := notOperator_of_isName h
  match args with
  | [] => rfl
  | [a] => simp [pieces, hunary, piecesOf]
  | [a, b] => simp [pieces, hbinary, hindex]
  | [a, b, c] => simp [pieces, hconditional]
  | a :: b :: c :: d :: args =>
    rw [pieces]
    all_goals simp

end Expr

/-! ## Pieces beside each other -/

namespace Piece

/-- Whether a name or a constant may end before a piece. -/
def isMark : Piece → Bool
  | space | closing => true
  | symbol s =>
    [Symbol.leftParen, .rightParen, .leftBracket, .rightBracket, .rightBrace, .comma, .colon,
      .dot].contains s
  | _ => false

/-- Whether an expression may start with a piece. -/
def isStart : Piece → Bool
  | opening | name _ | constant _ => true
  | symbol s => [Symbol.not, .minus, .leftBracket, .leftBrace].contains s
  | _ => false

/-- Whether a piece may stand before another. -/
def Precedes : Piece → Piece → Prop
  | name _, q | constant _, q | keywordIn, q | closing, q => q.isMark = true
  | symbol .less, q | symbol .greater, q | symbol .slash, q => q.isMark = true
  | symbol .dot, q => ∃ s, q = name s
  | symbol .not, q | opening, q => q.isStart = true
  | symbol _, _ | space, _ => True

variable {p q : Piece} {ps rest before after : List Piece} {pss : List (List Piece)}

/-- What stands before an opening parenthesis may stand before what is behind it. -/
theorem Precedes.trans_opening (h : Precedes p opening) (h' : Precedes opening q) :
    Precedes p q := by
  cases p with
  | symbol s => cases s <;> first | trivial | exact h' | simp [Precedes] at h
  | opening => exact h'
  | space => trivial
  | _ => cases h

/-- What stands before a closing parenthesis may stand before what is behind it. -/
theorem Precedes.trans_closing (h : Precedes p closing) (h' : Precedes closing q) :
    Precedes p q := by
  cases p with
  | symbol s => cases s <;> first | trivial | exact h' | simp [Precedes] at h
  | opening => cases h
  | space => trivial
  | _ => exact h'

/-- A chain without a piece that its neighbours do not need is a chain. -/
theorem isChain_erase (hp : ∀ p' q, Precedes p' p → Precedes p q → Precedes p' q)
    (h : (before ++ p :: after).IsChain Precedes) : (before ++ after).IsChain Precedes := by
  obtain ⟨hbefore, hafter, hjoin⟩ := List.isChain_append.1 h
  obtain ⟨hnext, hafter⟩ := List.isChain_cons.1 hafter
  exact List.isChain_append.2 ⟨hbefore, hafter, fun p' hp' q hq =>
    hp p' q (hjoin p' hp' p rfl) (hnext q hq)⟩

/-- What may come behind a name: a mark, or nothing. -/
structure Follows (rest : List Piece) : Prop where
  chain : rest.IsChain Precedes
  mark : ∀ q ∈ rest.head?, q.isMark = true

/-- A name may stand at the end. -/
theorem follows_nil : Follows [] := ⟨.nil, nofun⟩

/-- What starts with a mark that joins any piece may come behind a name. -/
theorem Follows.cons (hmark : p.isMark = true) (hfree : ∀ q, Precedes p q)
    (h : rest.IsChain Precedes) : Follows (p :: rest) where
  chain := List.isChain_cons.2 ⟨fun q _ => hfree q, h⟩
  mark := fun q hq => by rwa [← Option.some.inj hq]

/-- A closing parenthesis may come behind a name. -/
theorem Follows.closing (h : Follows rest) : Follows (.closing :: rest) where
  chain := List.isChain_cons.2 ⟨h.mark, h.chain⟩
  mark := fun q hq => by rw [← Option.some.inj hq]; rfl

/-- A name joins what may come behind one. -/
theorem Follows.name (h : Follows rest) (s : String) :
    (Piece.name s :: rest).IsChain Precedes :=
  List.isChain_cons.2 ⟨h.mark, h.chain⟩

/-- A selection may come behind a name. -/
theorem Follows.member (s : String) (h : Follows rest) :
    Follows (.symbol .dot :: .name s :: rest) where
  chain := List.isChain_cons_cons.2 ⟨⟨s, rfl⟩, h.name s⟩
  mark := fun q hq => by rw [← Option.some.inj hq]; rfl

/-- Pieces that join what comes behind a name. -/
def Joins (ps : List Piece) : Prop := ∀ ⦃rest⦄, Follows rest → (ps ++ rest).IsChain Precedes

/-- Pieces that an operand may have. -/
structure IsOperand (ps : List Piece) : Prop where
  starts : ∃ p rest, ps = p :: rest ∧ p.isStart = true
  joins : Joins ps

/-- A name is an operand. -/
theorem isOperand_name (s : String) : IsOperand [name s] where
  starts := ⟨name s, [], rfl, rfl⟩
  joins := fun _ h => h.name s

/-- A constant is an operand. -/
theorem isOperand_constant (v : Literal) : IsOperand [constant v] where
  starts := ⟨constant v, [], rfl, rfl⟩
  joins := fun _ h => List.isChain_cons.2 ⟨h.mark, h.chain⟩

/-- A piece before an operand that asks for no more than the start of one. -/
theorem IsOperand.cons (h : IsOperand ps) (hp : ∀ q, q.isStart = true → Precedes p q)
    (hrest : Follows rest) : (p :: (ps ++ rest)).IsChain Precedes := by
  refine List.isChain_cons.2 ⟨fun q hq => hp q ?_, h.joins hrest⟩
  obtain ⟨q', ps', rfl, hstart⟩ := h.starts
  rwa [← Option.some.inj hq]

/-- An operand stays one in parentheses. -/
theorem IsOperand.group (h : IsOperand ps) (binding demanded : Nat) :
    IsOperand (group binding demanded ps) := by
  unfold Piece.group
  split
  · refine ⟨⟨_, _, rfl, rfl⟩, fun rest hrest => ?_⟩
    rw [List.cons_append, List.append_assoc]
    exact h.cons (fun _ hstart => hstart) hrest.closing
  · exact h

/-- An operator before an operand makes an operand. -/
theorem IsOperand.unary (h : IsOperand ps) (op : UnaryOp) : IsOperand (ofUnary op :: ps) where
  starts := ⟨_, _, rfl, by cases op <;> rfl⟩
  joins := fun _ hrest => h.cons (by cases op <;> simp [ofUnary, Precedes]) hrest

/-- Pieces behind an operand. -/
theorem IsOperand.append (h : IsOperand ps) (qs : List Piece)
    (hqs : ∀ rest, Follows rest → Follows (qs ++ rest)) : IsOperand (ps ++ qs) where
  starts := by
    obtain ⟨p, rest, rfl, hstart⟩ := h.starts
    exact ⟨p, rest ++ qs, rfl, hstart⟩
  joins := fun rest hrest => by
    rw [List.append_assoc]
    exact h.joins (hqs rest hrest)

/-- A symbol between two spaces, and an operand behind it. -/
theorem Joins.spaced (p : Piece) (h : Joins ps) (hp : Precedes p space) (hrest : Follows rest) :
    Follows (space :: p :: space :: (ps ++ rest)) :=
  .cons rfl (fun _ => trivial) (List.isChain_cons_cons.2
    ⟨hp, List.isChain_cons.2 ⟨fun _ _ => trivial, h hrest⟩⟩)

/-- A space may stand behind every operator of two operands. -/
theorem precedes_ofBinary (op : BinaryOp) : Precedes (ofBinary op) space := by
  cases op <;> trivial

/-- Pieces that join do so with commas between them. -/
theorem joins_separated (h : ∀ ps ∈ pss, Joins ps) : Joins (separated pss) := by
  induction pss with
  | nil => exact fun _ hrest => hrest.chain
  | cons ps pss ih =>
    obtain ⟨hps, hpss⟩ := List.forall_mem_cons.1 h
    cases pss with
    | nil => exact hps
    | cons qs pss =>
      intro rest hrest
      rw [separated, List.append_assoc]
      · exact hps (.cons rfl (fun _ => trivial)
          (List.isChain_cons.2 ⟨fun _ _ => trivial, ih hpss hrest⟩))
      · simp

/-- A piece that may stand before any other. -/
theorem Joins.cons (p : Piece) (h : Joins ps) (hfree : ∀ q, Precedes p q) : Joins (p :: ps) :=
  fun _ hrest => List.isChain_cons.2 ⟨fun q _ => hfree q, h hrest⟩

/-- A closing bracket. -/
theorem Joins.close (p : Piece) (h : Joins ps) (hfree : ∀ q, Precedes p q)
    (hmark : p.isMark = true) : Joins (ps ++ [p]) := by
  intro rest hrest
  rw [List.append_assoc]
  exact h (.cons hmark hfree hrest.chain)

/-- A bracket that opens right behind an operand. -/
theorem Joins.follows (p : Piece) (h : Joins ps) (hfree : ∀ q, Precedes p q)
    (hmark : p.isMark = true) (hrest : Follows rest) : Follows (p :: (ps ++ rest)) :=
  .cons hmark hfree (h hrest)

/-- Brackets around pieces that join make an operand. -/
theorem isOperand_brackets (h : Joins ps) {o c : Symbol} (hstart : (symbol o).isStart = true)
    (ho : ∀ q, Precedes (symbol o) q) (hc : ∀ q, Precedes (symbol c) q)
    (hmark : (symbol c).isMark = true) : IsOperand (symbol o :: (ps ++ [symbol c])) where
  starts := ⟨_, _, rfl, hstart⟩
  joins := (h.close _ hc hmark).cons _ ho

/-- The arguments of a call, with their brackets. -/
theorem joins_call (h : ∀ ps ∈ pss, Joins ps) :
    Joins (separated pss ++ [symbol .rightParen]) :=
  (joins_separated h).close (symbol .rightParen) (fun _ => trivial) rfl

/-- A call is an operand. -/
theorem isOperand_call (function : String) (h : ∀ ps ∈ pss, Joins ps) :
    IsOperand (call function pss) where
  starts := ⟨_, _, rfl, rfl⟩
  joins := fun _ hrest =>
    ((joins_call h).follows (symbol .leftParen) (fun _ => trivial) rfl hrest).name function

/-- A call on a target may come behind a name. -/
theorem follows_call (function : String) (h : ∀ ps ∈ pss, Joins ps) (hrest : Follows rest) :
    Follows (symbol .dot :: call function pss ++ rest) :=
  ((joins_call h).follows (symbol .leftParen) (fun _ => trivial) rfl hrest).member function

end Piece

namespace Expr

open Piece (IsOperand Joins Follows Precedes group)

variable {α : Type}

mutual

/-- The pieces of an expression fit to each other. -/
theorem isOperand_pieces : (e : Expr α) → IsOperand e.pieces
  | ident _ name => Piece.isOperand_name name
  | literal _ value => Piece.isOperand_constant value
  | select _ operand field testOnly => by
    have hselected := ((isOperand_pieces operand).group operand.binding Binding.member).append
      [.symbol .dot, .name field] fun _ hrest => hrest.member field
    rw [pieces]
    cases testOnly with
    | false => exact hselected
    | true => exact Piece.isOperand_call "has" (List.forall_mem_singleton.2 hselected.joins)
  | call _ function args => by
    have hargs := joins_piecesOf args
    have hcall := Piece.isOperand_call function hargs
    -- The operators have one, two or three operands, so the case is told by the number of
    -- arguments.
    match args with
    | [] =>
      rw [pieces]
      · exact hcall
      all_goals simp
    | [a] =>
      have ha := isOperand_pieces a
      rw [pieces]
      cases UnaryOp.ofFunction? function with
      | some op => exact (ha.group a.binding Binding.unary).unary op
      | none => exact hcall
    | [a, b] =>
      have ha := isOperand_pieces a
      have hb := isOperand_pieces b
      rw [pieces]
      cases BinaryOp.ofFunction? function with
      | some op =>
        exact (ha.group a.binding op.binding).append _ fun _ hrest =>
          (hb.group b.binding (op.binding + 1)).joins.spaced _ (Piece.precedes_ofBinary op) hrest
      | none =>
        dsimp only
        split
        · exact (ha.group a.binding Binding.member).append _ fun _ hrest =>
            (hb.joins.close (.symbol .rightBracket) (fun _ => trivial) rfl).follows
            (.symbol .leftBracket) (fun _ => trivial) rfl hrest
        · exact hcall
    | [a, b, c] =>
      have ha := isOperand_pieces a
      have hb := isOperand_pieces b
      have hc := isOperand_pieces c
      rw [pieces]
      split
      · -- The colon is joined first, since the question mark comes before both branches.
        have hbranches : IsOperand (group b.binding Binding.or b.pieces
            ++ .space :: .symbol .colon :: .space :: c.pieces) :=
          (hb.group b.binding Binding.or).append _ fun _ hrest =>
            hc.joins.spaced (.symbol .colon) trivial hrest
        exact (ha.group a.binding Binding.or).append _ fun _ hrest =>
          hbranches.joins.spaced (.symbol .question) trivial hrest
      · exact hcall
    | a :: b :: c :: d :: args =>
      rw [pieces]
      · exact hcall
      all_goals simp
  | invoke _ target function args => by
    rw [pieces]
    exact ((isOperand_pieces target).group target.binding Binding.member).append _
      fun _ hrest => Piece.follows_call function (joins_piecesOf args) hrest
  | list _ elements => by
    rw [pieces]
    exact Piece.isOperand_brackets (Piece.joins_separated (joins_piecesOf elements)) rfl
      (fun _ => trivial) (fun _ => trivial) rfl
  | map _ entries => by
    rw [pieces]
    exact Piece.isOperand_brackets (Piece.joins_separated (joins_piecesOfEntries entries)) rfl
      (fun _ => trivial) (fun _ => trivial) rfl
  | comprehension _ loop var range body => by
    have hargs : ∀ ps ∈ [[.name var], body.pieces], Joins ps := List.forall_mem_cons.2
      ⟨(Piece.isOperand_name var).joins, List.forall_mem_singleton.2 (isOperand_pieces body).joins⟩
    rw [pieces]
    exact ((isOperand_pieces range).group range.binding Binding.member).append _
      fun _ hrest => Piece.follows_call loop.name hargs hrest

/-- The pieces of expressions join. -/
theorem joins_piecesOf : (es : List (Expr α)) → ∀ ps ∈ piecesOf es, Joins ps
  | [] => List.forall_mem_nil _
  | e :: rest => List.forall_mem_cons.2 ⟨(isOperand_pieces e).joins, joins_piecesOf rest⟩

/-- The pieces of entries join. -/
theorem joins_piecesOfEntries :
    (es : List (Expr α × Expr α)) → ∀ ps ∈ piecesOfEntries es, Joins ps
  | [] => List.forall_mem_nil _
  | (k, v) :: rest => by
    have hvalue := (isOperand_pieces v).joins.cons .space fun _ => trivial
    have hentry : IsOperand (k.pieces ++ .symbol .colon :: .space :: v.pieces) :=
      (isOperand_pieces k).append _ fun _ hrest =>
        hvalue.follows (.symbol .colon) (fun _ => trivial) rfl hrest
    exact List.forall_mem_cons.2 ⟨hentry.joins, joins_piecesOfEntries rest⟩

end

/-- The pieces of an expression are a chain. -/
theorem isChain_pieces (e : Expr α) : e.pieces.IsChain Precedes := by
  have hchain := (isOperand_pieces e).joins Piece.follows_nil
  rwa [List.append_nil] at hchain

end Expr

end CelShell
