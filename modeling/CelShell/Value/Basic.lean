import CelShell.Table
import CelShell.Token.Basic

/-!
# Values

What expressions evaluate to. A map keeps its entries in the order in which they were put in, and
its keys are of the four types that have a settled equality.
-/

namespace CelShell

/-- A key of a map. -/
inductive MapKey where
  | bool (b : Bool)
  | int (n : Int64)
  | uint (n : UInt64)
  | string (s : String)
  deriving DecidableEq, Inhabited

/-- A value. -/
inductive Value where
  | null
  | bool (b : Bool)
  | int (n : Int64)
  | uint (n : UInt64)
  | double (d : Double)
  | string (s : String)
  | list (items : List Value)
  | map (entries : List (MapKey × Value))
  deriving Inhabited

/-- The text of a key, which is also its source text. -/
def MapKey.text : MapKey → String
  | bool b => Literal.boolText b
  | int n => Number.int64Text n
  | uint n => Number.uint64Text n ++ "u"
  | string s => Text.quote s

namespace Value

/-- The name of a value's type, as far as a value alone shows it. -/
def typeName : Value → String
  | null => "null_type"
  | bool _ => "bool"
  | int _ => "int"
  | uint _ => "uint"
  | double _ => "double"
  | string _ => "string"
  | list _ => "list"
  | map _ => "map"

/-- The value that a constant denotes. -/
def ofLiteral : Literal → Value
  | .null => null
  | .bool b => bool b
  | .int n => int n
  | .uint n => uint n
  | .double d => double d
  | .string s => string s

/-- A key as a value. -/
def ofKey : MapKey → Value
  | .bool b => bool b
  | .int n => int n
  | .uint n => uint n
  | .string s => string s

/-- The key that a value is, if it can be one. -/
def toKey? : Value → Option MapKey
  | bool b => some (.bool b)
  | int n => some (.int n)
  | uint n => some (.uint n)
  | string s => some (.string s)
  | _ => none

/-- The values over which a loop runs: the elements of a list, the keys of a map. -/
def items? : Value → Option (List Value)
  | list items => some items
  | map entries => some (entries.map fun e => ofKey e.1)
  | _ => none

mutual

/-- The text of a value, written as an expression that denotes it. -/
def text : Value → String
  | null => "null"
  | bool b => Literal.boolText b
  | int n => Number.int64Text n
  | uint n => Number.uint64Text n ++ "u"
  | double d => d.text .source
  | string s => Text.quote s
  | list items => "[" ++ ", ".intercalate (texts items) ++ "]"
  | map entries => "\x7b" ++ ", ".intercalate (entryTexts entries) ++ "\x7d"

/-- The texts of values. -/
def texts : List Value → List String
  | [] => []
  | v :: rest => v.text :: texts rest

/-- The texts of entries. -/
def entryTexts : List (MapKey × Value) → List String
  | [] => []
  | (k, v) :: rest => (k.text ++ ": " ++ v.text) :: entryTexts rest

end

end Value

end CelShell
