import CelShell.Expr.Parser

/-!
# The grammar of expressions

Which trees a run of tokens spells, as derivations. Its nonterminals are the levels of binding, from
the conditional down to what stands alone, so that an expression of a level is one of the next level
or a construct of its own:

    conditional = or ["?" or ":" conditional]
    or … product = level op next | next             left-associative, one pair for each level
    unary       = member | "!" unary | "-" unary
    member      = primary | member "." IDENT ["(" items ")"] | member "[" conditional "]"
    primary     = literal | IDENT ["(" items ")"] | "(" conditional ")"
                | "[" items "]" | "{" entries "}"
    items       = [conditional {"," conditional} [","]]

A derivation knows nothing of budgets, of places or of the numbers of nodes: its trees are bare.
The macros are the two functions `globalCall?` and `receiverCall?`, which are plain calls when
macros are off and which refuse some arguments when they are on.
-/

namespace CelShell

namespace Grammar

/-- The operators with two operands, each with the level at which it binds and the token that
spells it. -/
inductive Infix : Nat → Kind → BinaryOp → Prop where
  | or : Infix Binding.or (.symbol .or) .or
  | and : Infix Binding.and (.symbol .and) .and
  | equals : Infix Binding.relation (.symbol .equals) .equals
  | notEquals : Infix Binding.relation (.symbol .notEquals) .notEquals
  | less : Infix Binding.relation (.symbol .less) .less
  | lessEquals : Infix Binding.relation (.symbol .lessEquals) .lessEquals
  | greater : Infix Binding.relation (.symbol .greater) .greater
  | greaterEquals : Infix Binding.relation (.symbol .greaterEquals) .greaterEquals
  | member : Infix Binding.relation .keywordIn .member
  | add : Infix Binding.additive (.symbol .plus) .add
  | subtract : Infix Binding.additive (.symbol .minus) .subtract
  | multiply : Infix Binding.multiplicative (.symbol .star) .multiply
  | divide : Infix Binding.multiplicative (.symbol .slash) .divide
  | modulo : Infix Binding.multiplicative (.symbol .percent) .modulo

/-- The level of what stands alone: a constant, a name, a call, or something in brackets. -/
def primary : Nat := Binding.member + 1

/-- What a minus sign makes of its operand. An int or double constant is negated; only the least
int, whose negation is no int, keeps its sign as a call. -/
def negation : Expr Unit → Expr Unit
  | .literal _ (.int n) =>
    if n = Int64.minValue then .call () "-_" [.literal () (.int n)] else .literal () (.int (-n))
  | .literal _ (.double d) => .literal () (.double d.neg)
  | e => .call () "-_" [e]

/-- The tree of a call without a target. The macro `has` takes a field selection, nothing else. -/
def globalCall? (macrosOn : Bool) (name : String) (args : List (Expr Unit)) : Option (Expr Unit) :=
  match macrosOn && name == "has", args with
  | true, [.select _ operand field false] => some (.select () operand field true)
  | true, [_] => none
  | _, _ => some (.call () name args)

/-- The tree of a call on a target. A loop macro takes a name and a body. -/
def receiverCall? (macrosOn : Bool) (target : Expr Unit) (name : String)
    (args : List (Expr Unit)) : Option (Expr Unit) :=
  match macrosOn, Loop.ofName? name, args with
  | true, some loop, [.ident _ var, body] => some (.comprehension () loop var target body)
  | true, some _, [_, _] => none
  | _, _, _ => some (.invoke () target name args)

/-- What a run of tokens is read as. -/
inductive Phrase where
  /-- An expression whose outermost construct binds at least as tightly as a level. -/
  | expr (level : Nat) (e : Expr Unit)
  /-- Expressions between commas. -/
  | items (es : List (Expr Unit))
  /-- Keys and values between commas. -/
  | entries (es : List (Expr Unit × Expr Unit))

/-- The grammar: a run of tokens spells a phrase. -/
inductive Derives (macrosOn : Bool) : Phrase → List Kind → Prop where
  /-- Each level holds the expressions of the next. -/
  | tighter : Binding.conditional ≤ level → Derives macrosOn (.expr (level + 1) e) ks →
      Derives macrosOn (.expr level e) ks
  /-- The conditional, to the right: its condition and its first branch are none themselves. -/
  | conditional : Derives macrosOn (.expr Binding.or c) ks₁ →
      Derives macrosOn (.expr Binding.or t) ks₂ →
      Derives macrosOn (.expr Binding.conditional e) ks₃ →
      Derives macrosOn (.expr Binding.conditional (.call () Operator.conditional [c, t, e]))
        (ks₁ ++ .symbol .question :: (ks₂ ++ .symbol .colon :: ks₃))
  /-- An operator with two operands, to the left: the right operand is of the next level. -/
  | binary : Infix level k op → Derives macrosOn (.expr level l) ks₁ →
      Derives macrosOn (.expr (level + 1) r) ks₂ →
      Derives macrosOn (.expr level (.call () op.function [l, r])) (ks₁ ++ k :: ks₂)
  | not : Derives macrosOn (.expr Binding.unary e) ks →
      Derives macrosOn (.expr Binding.unary (.call () "!_" [e])) (.symbol .not :: ks)
  | negate : Derives macrosOn (.expr Binding.unary e) ks →
      Derives macrosOn (.expr Binding.unary (negation e)) (.symbol .minus :: ks)
  | select : Derives macrosOn (.expr Binding.member e) ks →
      Derives macrosOn (.expr Binding.member (.select () e name false))
        (ks ++ [.symbol .dot, .ident name])
  | index : Derives macrosOn (.expr Binding.member e) ks₁ →
      Derives macrosOn (.expr Binding.conditional i) ks₂ →
      Derives macrosOn (.expr Binding.member (.call () Operator.index [e, i]))
        (ks₁ ++ .symbol .leftBracket :: (ks₂ ++ [.symbol .rightBracket]))
  | invoke : Derives macrosOn (.expr Binding.member target) ks₁ →
      Derives macrosOn (.items args) ks₂ → receiverCall? macrosOn target name args = some e →
      Derives macrosOn (.expr Binding.member e)
        (ks₁ ++ .symbol .dot :: .ident name :: .symbol .leftParen
          :: (ks₂ ++ [.symbol .rightParen]))
  | literal : Derives macrosOn (.expr primary (.literal () value)) [.literal value]
  | ident : Derives macrosOn (.expr primary (.ident () name)) [.ident name]
  | call : Derives macrosOn (.items args) ks → globalCall? macrosOn name args = some e →
      Derives macrosOn (.expr primary e)
        (.ident name :: .symbol .leftParen :: (ks ++ [.symbol .rightParen]))
  | parens : Derives macrosOn (.expr Binding.conditional e) ks →
      Derives macrosOn (.expr primary e) (.symbol .leftParen :: (ks ++ [.symbol .rightParen]))
  | list : Derives macrosOn (.items es) ks →
      Derives macrosOn (.expr primary (.list () es))
        (.symbol .leftBracket :: (ks ++ [.symbol .rightBracket]))
  | map : Derives macrosOn (.entries es) ks →
      Derives macrosOn (.expr primary (.map () es))
        (.symbol .leftBrace :: (ks ++ [.symbol .rightBrace]))
  | noItems : Derives macrosOn (.items []) []
  | lastItem : Derives macrosOn (.expr Binding.conditional e) ks → Derives macrosOn (.items [e]) ks
  /-- A comma comes between two items, or after the last. -/
  | moreItems : Derives macrosOn (.expr Binding.conditional e) ks₁ →
      Derives macrosOn (.items es) ks₂ →
      Derives macrosOn (.items (e :: es)) (ks₁ ++ .symbol .comma :: ks₂)
  | noEntries : Derives macrosOn (.entries []) []
  | lastEntry : Derives macrosOn (.expr Binding.conditional k) ks₁ →
      Derives macrosOn (.expr Binding.conditional v) ks₂ →
      Derives macrosOn (.entries [(k, v)]) (ks₁ ++ .symbol .colon :: ks₂)
  /-- A comma comes between two entries, or after the last. -/
  | moreEntries : Derives macrosOn (.expr Binding.conditional k) ks₁ →
      Derives macrosOn (.expr Binding.conditional v) ks₂ → Derives macrosOn (.entries es) ks₃ →
      Derives macrosOn (.entries ((k, v) :: es))
        (ks₁ ++ .symbol .colon :: (ks₂ ++ .symbol .comma :: ks₃))

end Grammar

end CelShell
