import CelShell.Eval.Error
import CelShell.Expr.Operator
import CelShell.Value.Equality

/-!
# Operators on values

Arithmetic on integers is exact or refused: the result is computed without bounds and must fit the
type of the operands. Division is refused where the quotient does not fit, and so is the remainder,
although the remainder itself would.
-/

namespace CelShell

/-- What a function answers to arguments that it does not take. -/
def refused (function : String) (args : List Value) : Except EvalError α :=
  .error (.noOverload function (args.map Value.typeName))

namespace Value

/-- An integer as an int, if it fits. -/
def ofInt (n : Int) : Except EvalError Value :=
  match Number.int64? n with
  | some word => .ok (int word)
  | none => .error (.overflow false)

/-- An integer as a uint, if it fits. -/
def ofUint (n : Int) : Except EvalError Value :=
  match Number.uint64? n with
  | some word => .ok (uint word)
  | none => .error (.overflow true)

end Value

namespace BinaryOp

/-- An arithmetic operation on integers without bounds. Division goes toward zero. -/
def onIntegers : BinaryOp → Int → Int → Int
  | add, x, y => x + y
  | subtract, x, y => x - y
  | multiply, x, y => x * y
  | divide, x, y => x.tdiv y
  | modulo, x, y => x.tmod y
  | _, x, _ => x

/-- An arithmetic operation on doubles; there is none for remainders. -/
def onDoubles? : BinaryOp → Option (Double → Double → Double)
  | add => some Double.add
  | subtract => some Double.sub
  | multiply => some Double.mul
  | divide => some Double.div
  | _ => none

/-- Arithmetic on two numbers of one type. -/
def arithmetic (op : BinaryOp) : Value → Value → Except EvalError Value
  | .int x, .int y =>
    if y.toInt = 0 ∧ op = divide then .error .divisionByZero
    else if y.toInt = 0 ∧ op = modulo then .error .modulusByZero
    else do
      -- a remainder is refused with its quotient
      if op = modulo then discard (Value.ofInt (divide.onIntegers x.toInt y.toInt))
      Value.ofInt (op.onIntegers x.toInt y.toInt)
  | .uint x, .uint y =>
    if y.toNat = 0 ∧ op = divide then .error .divisionByZero
    else if y.toNat = 0 ∧ op = modulo then .error .modulusByZero
    else Value.ofUint (op.onIntegers x.toNat y.toNat)
  | .double x, .double y =>
    match op.onDoubles? with
    | some f => .ok (.double (f x y))
    | none => refused op.function [.double x, .double y]
  | a, b => refused op.function [a, b]

/-- Whether an ordering is one that a comparison accepts. -/
def holdsOf : BinaryOp → Ordering → Bool
  | less, o => o.isLT
  | lessEquals, o => o.isLE
  | greater, o => o.isGT
  | greaterEquals, o => o.isGE
  | _, _ => false

/-- A comparison by order; it does not hold of a NaN. -/
def ordering (op : BinaryOp) (a b : Value) : Except EvalError Value :=
  match a.compare? b with
  | some (some o) => .ok (.bool (op.holdsOf o))
  | some none => .ok (.bool false)
  | none => refused op.function [a, b]

/-- Membership: of an element in a list, of a key in a map. -/
def membership (item container : Value) : Except EvalError Value :=
  match container with
  | .list items => .ok (.bool (items.any fun v => v.equals item))
  | .map entries =>
    .ok (.bool (match item.toKey? with
      | some key => Table.contains entries key
      | none => false))
  | _ => refused member.function [item, container]

/-- What an operator makes of its operands. The two connectives are not among those that work on
values: they look at one operand at a time. -/
def apply (op : BinaryOp) (a b : Value) : Except EvalError Value :=
  match op with
  | or | and => refused op.function [a, b]
  | equals => .ok (.bool (a.equals b))
  | notEquals => .ok (.bool (!a.equals b))
  | less | lessEquals | greater | greaterEquals => op.ordering a b
  | member => membership a b
  | add =>
    match a, b with
    | .string x, .string y => .ok (.string (x ++ y))
    | .list xs, .list ys => .ok (.list (xs ++ ys))
    | _, _ => add.arithmetic a b
  | subtract | multiply | divide | modulo => op.arithmetic a b

end BinaryOp

namespace UnaryOp

/-- What an operator makes of its operand. -/
def apply : UnaryOp → Value → Except EvalError Value
  | not, .bool b => .ok (.bool (!b))
  | negate, .int n => Value.ofInt (-n.toInt)
  | negate, .double d => .ok (.double d.neg)
  | op, v => refused op.function [v]

end UnaryOp

namespace Value

/-- The element of a list at an index, or the value of a key of a map. -/
def index (container i : Value) : Except EvalError Value :=
  match container with
  | list items =>
    match i.integer? with
    | some n =>
      match if 0 ≤ n then items[n.toNat]? else none with
      | some v => .ok v
      | none => .error (.indexOutOfRange i.text)
    | none => refused Operator.index [container, i]
  | map entries =>
    match i.toKey?.bind (Table.get? entries) with
    | some v => .ok v
    | none => .error (.noSuchKey i.text)
  | _ => refused Operator.index [container, i]

/-- The value of a field of a map. -/
def field (name : String) : Value → Except EvalError Value
  | map entries =>
    match Table.get? entries (.string name) with
    | some v => .ok v
    | none => .error (.noSuchKey name)
  | v => .error (.noFields v.typeName)

/-- Whether a map has a field. -/
def hasField (name : String) : Value → Except EvalError Value
  | map entries => .ok (bool (Table.contains entries (.string name)))
  | v => .error (.noFields v.typeName)

end Value

end CelShell
