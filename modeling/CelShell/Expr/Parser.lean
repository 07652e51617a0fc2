import CelShell.Expr.Basic
import CelShell.Token.Lexer

/-!
# Parsing expressions

Expressions are read by precedence climbing:

    expr     = or ["?" or ":" expr]
    or       = and {"||" and}            and the tighter levels likewise
    unary    = member | "!" unary | "-" unary
    member   = primary {"." IDENT ["(" args ")"] | "[" expr "]"}
    primary  = literal | IDENT ["(" args ")"] | "(" expr ")" | list | map

Nesting is limited. A parser has a *budget*, the number of levels that it may still go down, and
every bracket, every unary operator and every link of a chain takes one. A chain gives back at its
end what its links took. The budget is what the recursion decreases: `Level` holds the parsers of
one budget in terms of those of the budget below, and `level` ties the knot. Within one budget only
comma-separated lists repeat, and they consume tokens.

With macros on, `has(a.b)` and the calls of the loop macros become nodes of their own as soon as
they are read.
-/

namespace CelShell

/-- What is wrong with the syntax of an expression. -/
inductive SyntaxError where
  /-- Another token than the one that has to come here. -/
  | expected (expected found : Kind) (span : Span)
  /-- A token that nothing allows here. -/
  | unexpected (found : Kind) (span : Span)
  /-- Anything else, in words. -/
  | message (text : String) (span : Span)
  deriving DecidableEq

namespace SyntaxError

/-- Where the error is. -/
def span : SyntaxError → Span
  | expected _ _ s | unexpected _ s | message _ s => s

/-- The error in words. -/
def text : SyntaxError → String
  | expected e f _ => "Syntax error: expected " ++ e.describe ++ ", found " ++ f.describe
  | unexpected f _ => "Syntax error: unexpected " ++ f.describe
  | message m _ => "Syntax error: " ++ m

end SyntaxError

/-- How many levels an expression may be nested. -/
def maxDepth : Nat := 100

/-- What a parser reads from. -/
structure Cursor where
  /-- The tokens not yet consumed. -/
  rest : List Token
  /-- The place of the token consumed last, if there is one. -/
  previous : Span
  /-- The number that the next node gets. -/
  nextId : Nat
  /-- Whether macros are expanded. -/
  macrosOn : Bool
  deriving DecidableEq

namespace Cursor

/-- The current token. -/
def current? (c : Cursor) : Option Token := c.rest.head?

/-- What the current token says; past the last token it is the end. -/
def kind (c : Cursor) : Kind :=
  match c.rest with
  | t :: _ => t.kind
  | [] => .eof

/-- The place of the current token; past the last token it is that of the last one. -/
def span (c : Cursor) : Span :=
  match c.rest with
  | t :: _ => t.span
  | [] => c.previous

/-- The cursor after the current token. -/
def skip (c : Cursor) : Cursor :=
  match c.rest with
  | t :: rest => { c with rest := rest, previous := t.span }
  | [] => c

/-- Whether the current token is of a kind. -/
def at? (c : Cursor) (kind : Kind) : Bool :=
  match c.rest with
  | t :: _ => t.kind.same kind
  | [] => false

/-- Whether nothing but the end is left. -/
def atEnd (c : Cursor) : Bool :=
  match c.rest with
  | t :: _ => t.kind == .eof
  | [] => true

/-- The error of a current token that is not the expected one. -/
def expectedError (c : Cursor) (kind : Kind) : SyntaxError := .expected kind c.kind c.span

/-- The error of a current token that nothing allows. -/
def unexpectedError (c : Cursor) : SyntaxError := .unexpected c.kind c.span

/-- The error of an expression nested too deep at the current token. -/
def tooDeepError (c : Cursor) : SyntaxError :=
  .message ("expression nested more than " ++ toString maxDepth ++ " levels deep") c.span

end Cursor

/-- A parser moves a cursor. It fails with the one error that it reports, or with none if the tokens
stop, without their end mark, where a name has to follow. -/
abbrev Parser := EStateM (Option SyntaxError) Cursor

namespace Parser

/-- Fails with the error that the cursor has there. -/
def failWith (error : Cursor → SyntaxError) : Parser α := do
  throw (some (error (← get)))

/-- Consumes the current token if it is a symbol. -/
def skip (s : Symbol) : Parser Bool := do
  let cursor ← get
  if cursor.at? (.symbol s) then
    set cursor.skip
    return true
  else return false

/-- Consumes the current token, which has to be a symbol. -/
def expect (s : Symbol) : Parser Unit := do
  unless ← skip s do failWith (·.expectedError (.symbol s))

/-- Consumes the current token, whatever it is. -/
def advance : Parser Unit := modify Cursor.skip

/-- A node with a number of its own. -/
def node (make : Mark → Tree) (span : Span) : Parser Tree := do
  let cursor ← get
  set { cursor with nextId := cursor.nextId + 1 }
  return make ⟨cursor.nextId, span⟩

/-- Items with commas between them, up to and including a closing symbol; a comma may stand before
it. The number bounds the items, and one more than the tokens left is never needed. -/
def itemsUpTo (item : Parser α) (close : Symbol) : Nat → Parser (List α)
  -- Each item has taken a token, so none is left and this one fails.
  | 0 => do
    let last ← item
    expect close
    return [last]
  | n + 1 => do
    if (← get).at? (.symbol close) then
      expect close
      return []
    let first ← item
    if ← skip .comma then
      return first :: (← itemsUpTo item close n)
    else
      expect close
      return [first]

/-- Items with commas between them, up to and including a closing symbol. -/
def items (item : Parser α) (close : Symbol) : Parser (List α) := do
  itemsUpTo item close (← get).rest.length

/-! ## Calls and macros -/

/-- A call without a target; a presence test if it is one of the macro `has`. -/
def globalCall (name : String) (args : List Tree) (span : Span) : Parser Tree := do
  match (← get).macrosOn && name == "has", args with
  -- The test is of a field that is selected; a test of a test is refused below.
  | true, [.select _ operand field false] => node (fun m => .select m operand field true) span
  | true, [arg] => throw (some (.message "invalid argument to has() macro" arg.mark.span))
  | _, _ => node (fun m => .call m name args) span

/-- A call on a target; a comprehension if it is one of a loop macro. -/
def receiverCall (target : Tree) (name : String) (args : List Tree) (span : Span) :
    Parser Tree := do
  match (← get).macrosOn, Loop.ofName? name, args with
  | true, some loop, [.ident _ var, body] =>
    node (fun m => .comprehension m loop var target body) span
  -- With two arguments the macro is meant, with any other number a function of its name.
  | true, some _, [var, _] =>
    throw (some (.message "argument must be a simple name" var.mark.span))
  | _, _, _ => node (fun m => .invoke m target name args) span

/-! ## Operators -/

/-- The negation of a constant as a constant. The least integer has none. -/
def negated? : Literal → Option Literal
  | .int n => (Number.int64? (-n.toInt)).map .int
  | .double d => some (.double d.neg)
  | _ => none

/-- An operator before its operand. Negated numbers are constants. -/
def unaryNode (op : UnaryOp) (operand : Tree) (span : Span) : Parser Tree :=
  let folded := match op, operand with
    | .negate, .literal _ value => negated? value
    | _, _ => none
  match folded with
  | some value => node (fun m => .literal m value) span
  | none => node (fun m => .call m op.function [operand]) span

/-! ## The parsers of one budget -/

/-- The parsers that a budget allows. -/
structure Level where
  /-- A whole expression. -/
  expr : Parser Tree
  /-- An operand of a binary operator. -/
  unary : Parser Tree
  /-- The rest of a chain of operators that bind at least as tightly as a level, after what was read
  of it. -/
  binaryChain : Nat → Tree → Parser Tree
  /-- The rest of a chain of members, after what was read of it. -/
  memberChain : Tree → Parser Tree

namespace Level

/-- A chain of operators that bind at least as tightly as a level. -/
def binary (l : Level) (least : Nat) : Parser Tree := do l.binaryChain least (← l.unary)

/-- An expression that may be a conditional. -/
def conditional (l : Level) : Parser Tree := do
  let condition ← l.binary Binding.or
  if ← skip .question then
    let thenBranch ← l.binary Binding.or
    expect .colon
    -- Only the last branch may be a conditional without brackets.
    let elseBranch ← l.expr
    node (fun m => .call m Operator.conditional [condition, thenBranch, elseBranch])
      (condition.mark.span.cover elseBranch.mark.span)
  else return condition

/-- What stands alone: a constant, a name, a call, or something in brackets. -/
def primary (expr : Parser Tree) : Parser Tree := do
  let cursor ← get
  match cursor.rest with
  | ⟨.literal value, span⟩ :: _ =>
    advance
    node (fun m => .literal m value) span
  | ⟨.ident name, span⟩ :: _ =>
    advance
    if ← skip .leftParen then
      let args ← items expr .rightParen
      globalCall name args (span.cover (← get).previous)
    else node (fun m => .ident m name) span
  | ⟨.symbol .leftParen, _⟩ :: _ =>
    advance
    let inner ← expr
    expect .rightParen
    -- Brackets leave no trace in the tree.
    return inner
  | ⟨.symbol .leftBracket, span⟩ :: _ =>
    advance
    let elements ← items expr .rightBracket
    node (fun m => .list m elements) (span.cover (← get).previous)
  | ⟨.symbol .leftBrace, span⟩ :: _ =>
    advance
    let entry := do
      let key ← expr
      expect .colon
      let value ← expr
      return (key, value)
    let entries ← items entry .rightBrace
    node (fun m => .map m entries) (span.cover (← get).previous)
  | _ => failWith Cursor.unexpectedError

/-- What follows a point: a field, or a call on the expression before it. -/
def field (l : Level) (target : Tree) : Parser Tree := do
  match (← get).rest with
  | ⟨.ident name, span⟩ :: _ =>
    advance
    if ← skip .leftParen then
      let args ← items l.expr .rightParen
      receiverCall target name args (target.mark.span.cover (← get).previous)
    else node (fun m => .select m target name false) (target.mark.span.cover span)
  | ⟨kind, span⟩ :: _ =>
    advance
    throw (some (.message ("expected field name, found " ++ kind.describe) span))
  -- A list of tokens without its end mark stops here.
  | [] => throw none

/-- What follows an opening bracket: an index of the expression before it. -/
def index (l : Level) (target : Tree) : Parser Tree := do
  let index ← l.expr
  expect .rightBracket
  node (fun m => .call m Operator.index [target, index])
    (target.mark.span.cover (← get).previous)

/-- The parsers of a budget, given those of the budget below unless there is none. -/
def ofBelow (below : Option Level) : Level :=
  let expr := match below with
    | some l => l.conditional
    | none => failWith Cursor.tooDeepError
  let memberChain := fun target => do
    -- Each link takes a level, and the caller goes on with its own budget once the chain has ended.
    match (← get).kind, below with
    | .symbol .dot, some l =>
      advance
      l.memberChain (← l.field target)
    | .symbol .leftBracket, some l =>
      advance
      l.memberChain (← l.index target)
    | .symbol .dot, none | .symbol .leftBracket, none => failWith Cursor.tooDeepError
    | _, _ => return target
  let unary := do
    let cursor ← get
    match UnaryOp.ofKind? cursor.kind, below with
    | some op, some l =>
      advance
      let operand ← l.unary
      unaryNode op operand (cursor.span.cover operand.mark.span)
    | some _, none => failWith Cursor.tooDeepError
    | none, _ => memberChain (← primary expr)
  let binaryChain := fun least left => do
    -- An operator that binds less tightly is left to the chain around this one, even where no level
    -- is left.
    match BinaryOp.ofKind? (← get).kind, below with
    | some op, some l =>
      if op.binding < least then return left
      advance
      -- What is to the right of an operator binds more tightly, so equal operators group to the
      -- left.
      let right ← l.binary (op.binding + 1)
      l.binaryChain least
        (← node (fun m => .call m op.function [left, right])
          (left.mark.span.cover right.mark.span))
    | some op, none => if op.binding < least then return left else failWith Cursor.tooDeepError
    | none, _ => return left
  { expr, unary, binaryChain, memberChain }

end Level

/-- The parsers of each budget. -/
def level : Nat → Level
  | 0 => .ofBelow none
  | budget + 1 => .ofBelow (some (level budget))

/-- An expression, with a budget. -/
def expr (budget : Nat) : Parser Tree := (level budget).expr

end Parser

namespace Expr

/-- The expression that tokens spell, all of them up to their end mark. -/
def ofTokens (tokens : List Token) (macrosOn : Bool) : Except SyntaxError Tree :=
  match Parser.expr maxDepth ⟨tokens, .dummy, 1, macrosOn⟩ with
  | .ok tree cursor => if cursor.atEnd then .ok tree else .error cursor.unexpectedError
  | .error (some error) _ => .error error
  | .error none cursor => .error cursor.unexpectedError

/-- The expression that a text spells. A fault in a token is an error of its syntax. -/
def parse (source : String) (macrosOn : Bool) : Except SyntaxError Tree :=
  match Token.list source with
  | .ok tokens => ofTokens tokens macrosOn
  | .error e => .error (.message e.message e.span)

end Expr

end CelShell
