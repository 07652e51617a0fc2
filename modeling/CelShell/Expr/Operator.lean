import CelShell.Token.Basic

/-!
# Operators

An operator of the language is a call of a function with a reserved name: `a + b` is a call of
`_+_` with two arguments and `!a` one of `!_` with one. This module holds those names, how each
operator is written and how tightly it binds.
-/

namespace CelShell

/-! ## How tightly constructs bind, loosest first -/

namespace Binding

/-- The conditional. -/
def conditional : Nat := 1

/-- Disjunction. -/
def or : Nat := 2

/-- Conjunction. -/
def and : Nat := 3

/-- Comparisons and membership. -/
def relation : Nat := 4

/-- Sums and differences. -/
def additive : Nat := 5

/-- Products, quotients and remainders. -/
def multiplicative : Nat := 6

/-- Negations. -/
def unary : Nat := 7

/-- Field access, indexing, calls, and all that has brackets of its own. -/
def member : Nat := 8

end Binding

/-- The operators with two operands. -/
inductive BinaryOp where
  | or | and
  | equals | notEquals | less | lessEquals | greater | greaterEquals | member
  | add | subtract | multiply | divide | modulo
  deriving DecidableEq, Repr

namespace BinaryOp

/-- Every operator with two operands. -/
def all : List BinaryOp :=
  [or, and, equals, notEquals, less, lessEquals, greater, greaterEquals, member, add, subtract,
    multiply, divide, modulo]

/-- The name of the function that an operator calls. -/
def function : BinaryOp → String
  | or => "_||_"
  | and => "_&&_"
  | equals => "_==_"
  | notEquals => "_!=_"
  | less => "_<_"
  | lessEquals => "_<=_"
  | greater => "_>_"
  | greaterEquals => "_>=_"
  | member => "@in"
  | add => "_+_"
  | subtract => "_-_"
  | multiply => "_*_"
  | divide => "_/_"
  | modulo => "_%_"

/-- How an operator is written. -/
def text : BinaryOp → String
  | or => "||"
  | and => "&&"
  | equals => "=="
  | notEquals => "!="
  | less => "<"
  | lessEquals => "<="
  | greater => ">"
  | greaterEquals => ">="
  | member => "in"
  | add => "+"
  | subtract => "-"
  | multiply => "*"
  | divide => "/"
  | modulo => "%"

/-- How tightly an operator binds. -/
def binding : BinaryOp → Nat
  | or => Binding.or
  | and => Binding.and
  | equals | notEquals | less | lessEquals | greater | greaterEquals | member => Binding.relation
  | add | subtract => Binding.additive
  | multiply | divide | modulo => Binding.multiplicative

/-- The operator that calls a function. -/
def ofFunction? (name : String) : Option BinaryOp := all.find? fun op => op.function == name

/-- The operator that a token is. -/
def ofKind? : Kind → Option BinaryOp
  | .keywordIn => some member
  | .symbol .or => some or
  | .symbol .and => some and
  | .symbol .equals => some equals
  | .symbol .notEquals => some notEquals
  | .symbol .less => some less
  | .symbol .lessEquals => some lessEquals
  | .symbol .greater => some greater
  | .symbol .greaterEquals => some greaterEquals
  | .symbol .plus => some add
  | .symbol .minus => some subtract
  | .symbol .star => some multiply
  | .symbol .slash => some divide
  | .symbol .percent => some modulo
  | _ => none

end BinaryOp

/-- The operators with one operand. -/
inductive UnaryOp where
  | not | negate
  deriving DecidableEq, Repr

namespace UnaryOp

/-- Every operator with one operand. -/
def all : List UnaryOp := [not, negate]

/-- The name of the function that an operator calls. -/
def function : UnaryOp → String
  | not => "!_"
  | negate => "-_"

/-- How an operator is written. -/
def text : UnaryOp → String
  | not => "!"
  | negate => "-"

/-- The operator that calls a function. -/
def ofFunction? (name : String) : Option UnaryOp := all.find? fun op => op.function == name

/-- The operator that a token is. -/
def ofKind? : Kind → Option UnaryOp
  | .symbol .not => some not
  | .symbol .minus => some negate
  | _ => none

end UnaryOp

namespace Operator

/-- The function that indexing calls. -/
def index : String := "_[_]"

/-- The function that the conditional calls. -/
def conditional : String := "_?_:_"

/-- Whether a name is reserved for an operator. -/
def isReserved (name : String) : Bool :=
  (BinaryOp.ofFunction? name).isSome || (UnaryOp.ofFunction? name).isSome || name == index
    || name == conditional

/-- The name of a function in messages: operators are named as they are written. -/
def displayName (name : String) : String :=
  match BinaryOp.ofFunction? name, UnaryOp.ofFunction? name with
  | some op, _ => op.text
  | none, some op => op.text
  | none, none =>
    if name = index then "[]" else if name = conditional then "?:" else name

end Operator

end CelShell
