import CelShell.Eval.Operation

/-!
# Built-in functions

The functions of the language by name, the operators among them. A function that is called on a
target gets the target as its first argument, so the two styles of a call are the same here.
-/

namespace CelShell

namespace Text

/-- Whether a text occurs in another. -/
def isPartOf (part : List Char) : List Char → Bool
  | [] => part.isEmpty
  | c :: rest => part.isPrefixOf (c :: rest) || isPartOf part rest

end Text

/-- The functions that are called by a name of their own. -/
inductive CoreFunction where
  | size | contains | startsWith | endsWith | int | uint | double | string | bool
  deriving DecidableEq, Repr

namespace CoreFunction

/-- Every such function. -/
def all : List CoreFunction :=
  [size, contains, startsWith, endsWith, int, uint, double, string, bool]

/-- The name of a function. -/
def name : CoreFunction → String
  | size => "size"
  | contains => "contains"
  | startsWith => "startsWith"
  | endsWith => "endsWith"
  | int => "int"
  | uint => "uint"
  | double => "double"
  | string => "string"
  | bool => "bool"

/-- The function of a name. -/
def ofName? (name : String) : Option CoreFunction := all.find? fun f => f.name == name

end CoreFunction

namespace Value

/-- A conversion that fails because the number is out of range. -/
def outOfRange (source number target : String) : Except EvalError Value :=
  .error (.conversion (.outOfRange source number target))

/-- A conversion that fails because the text spells no such value. -/
def unreadable (text target : String) : Except EvalError Value :=
  .error (.conversion (.unreadable text target))

/-- The number of characters, elements or entries. -/
def size : Value → Except EvalError Value
  | string s => ofInt s.length
  | list items => ofInt items.length
  | map entries => ofInt entries.length
  | v => refused CoreFunction.size.name [v]

/-- Conversion to int. A double loses its fraction. -/
def toInt : Value → Except EvalError Value
  | int n => .ok (int n)
  | uint n =>
    match Number.int64? n.toNat with
    | some word => .ok (int word)
    | none => outOfRange "uint" (Number.uint64Text n) "int"
  | double d =>
    -- The fraction goes before the bounds are looked at.
    match if d.isFinite then Number.int64? d.truncate else none with
    | some word => .ok (int word)
    | none => outOfRange "double" (d.text .source) "int"
  | string s =>
    match Number.readInt64? s.toList with
    | some word => .ok (int word)
    | none => unreadable s "int"
  | v => refused CoreFunction.int.name [v]

/-- Conversion to uint. A double loses its fraction. -/
def toUint : Value → Except EvalError Value
  | uint n => .ok (uint n)
  | int n =>
    match Number.uint64? n.toInt with
    | some word => .ok (uint word)
    | none => outOfRange "int" (Number.int64Text n) "uint"
  | double d =>
    match if d.isFinite then Number.uint64? d.truncate else none with
    | some word => .ok (uint word)
    | none => outOfRange "double" (d.text .source) "uint"
  | string s =>
    match Number.readUInt64? s.toList with
    | some word => .ok (uint word)
    | none => unreadable s "uint"
  | v => refused CoreFunction.uint.name [v]

/-- Conversion to double, rounded to nearest. -/
def toDouble : Value → Except EvalError Value
  | double d => .ok (double d)
  | int n => .ok (double (Double.ofInt n.toInt))
  | uint n => .ok (double (Double.ofInt n.toNat))
  | string s =>
    match Double.read? s.toList with
    | some d => .ok (double d)
    | none => unreadable s "double"
  | v => refused CoreFunction.double.name [v]

/-- Conversion to text, without the marks that tell the types of literals apart. -/
def toText : Value → Except EvalError Value
  | string s => .ok (string s)
  | int n => .ok (string (Number.int64Text n))
  | uint n => .ok (string (Number.uint64Text n))
  | double d => .ok (string (d.text .plain))
  | bool b => .ok (string (Literal.boolText b))
  | v => refused CoreFunction.string.name [v]

/-- Conversion to a truth value. -/
def toBool : Value → Except EvalError Value
  | bool b => .ok (bool b)
  | string s =>
    if s ∈ ["true", "True", "TRUE", "t", "1"] then .ok (bool true)
    else if s ∈ ["false", "False", "FALSE", "f", "0"] then .ok (bool false)
    else unreadable s "bool"
  | v => refused CoreFunction.bool.name [v]

end Value

/-- What a function makes of its arguments. -/
def CoreFunction.apply : CoreFunction → List Value → Except EvalError Value
  | size, [v] => v.size
  | contains, [.string s, .string part] => .ok (.bool (Text.isPartOf part.toList s.toList))
  | startsWith, [.string s, .string part] => .ok (.bool (part.toList.isPrefixOf s.toList))
  | endsWith, [.string s, .string part] => .ok (.bool (part.toList.isSuffixOf s.toList))
  | int, [v] => v.toInt
  | uint, [v] => v.toUint
  | double, [v] => v.toDouble
  | string, [v] => v.toText
  | bool, [v] => v.toBool
  | f, args => refused f.name args

/-- What the language itself can call. -/
inductive Builtin where
  | binary (op : BinaryOp)
  | unary (op : UnaryOp)
  | index
  | conditional
  | core (function : CoreFunction)
  deriving DecidableEq, Repr

namespace Builtin

/-- The built-in function of a name. -/
def ofName? (name : String) : Option Builtin :=
  match BinaryOp.ofFunction? name, UnaryOp.ofFunction? name, CoreFunction.ofName? name with
  | some op, _, _ => some (binary op)
  | none, some op, _ => some (unary op)
  | none, none, some f => some (core f)
  | none, none, none =>
    if name = Operator.index then some index
    else if name = Operator.conditional then some conditional
    else none

/-- Whether a name is that of a built-in function. -/
def isName (name : String) : Bool := (ofName? name).isSome

/-- The name of a built-in function. -/
def name : Builtin → String
  | binary op => op.function
  | unary op => op.function
  | index => Operator.index
  | conditional => Operator.conditional
  | core f => f.name

/-- What a built-in function makes of its arguments. -/
def apply : Builtin → List Value → Except EvalError Value
  | binary op, [a, b] => op.apply a b
  | unary op, [v] => op.apply v
  | index, [container, i] => container.index i
  | core f, args => f.apply args
  -- The conditional chooses between evaluations and has nothing to do with values.
  | b, args => refused b.name args

/-- A call of the function of a name; a name without a function takes no arguments at all. -/
def call (function : String) (args : List Value) : Except EvalError Value :=
  match ofName? function with
  | some b => b.apply args
  | none => refused function args

end Builtin

end CelShell
