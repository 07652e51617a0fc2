import CelShell.Expr.Basic
import CelShell.Format.Json

/-!
# The structured format

An expression as the JSON graph of its nodes. Each node is an object of its number and of one field
that is named for its kind. The fields of every object stand in ascending order of their names.
-/

namespace CelShell

namespace Literal

/-- A constant as JSON, in a field named for its type. -/
def toJson : Literal → Json
  | null => .object [("nullValue", .null)]
  | bool b => .object [("boolValue", .bool b)]
  | int n => .object [("int64Value", .integer n.toInt)]
  | uint n => .object [("uint64Value", .integer n.toNat)]
  | double d => .object [("doubleValue", .double d)]
  | string s => .object [("stringValue", .string s)]

end Literal

namespace Expr

/-- A node whose field is named so that it comes before the number. -/
def nodeBefore (id : Int) (kind : String) (body : Json) : Json :=
  .object [(kind, body), ("id", .integer id)]

/-- A node whose field is named so that it comes after the number. -/
def nodeAfter (id : Int) (kind : String) (body : Json) : Json :=
  .object [("id", .integer id), (kind, body)]

/-- The field of the arguments of a call; a call without arguments has none. -/
def argsField : List Json → List (String × Json)
  | [] => []
  | args => [("args", .array args)]

section

variable (id : α → Int)

mutual

/-- An expression as JSON, its nodes numbered by their marks. -/
def toJson : Expr α → Json
  | ident m name => nodeAfter (id m) "identExpr" (.object [("name", .string name)])
  | literal m value => nodeBefore (id m) "constExpr" value.toJson
  | select m operand field testOnly =>
    nodeAfter (id m) "selectExpr" (.object
      ([("field", .string field), ("operand", toJson operand)]
        ++ if testOnly then [("testOnly", .bool true)] else []))
  | call m function args =>
    nodeBefore (id m) "callExpr"
      (.object (argsField (toJsonList args) ++ [("function", .string function)]))
  | invoke m target function args =>
    nodeBefore (id m) "callExpr"
      (.object (argsField (toJsonList args)
        ++ [("function", .string function), ("target", toJson target)]))
  | list m elements =>
    nodeAfter (id m) "listExpr" (.object [("elements", .array (toJsonList elements))])
  | map m entries =>
    nodeAfter (id m) "structExpr" (.object [("entries", .array (toJsonEntries entries))])
  | comprehension m loop var range body =>
    nodeBefore (id m) "comprehensionExpr" (.object
      [("iterRange", toJson range), ("iterVar", .string var), ("loopStep", toJson body),
        ("macro", .string loop.name)])

/-- Expressions as JSON. -/
def toJsonList : List (Expr α) → List Json
  | [] => []
  | e :: rest => toJson e :: toJsonList rest

/-- The entries of a map as JSON. -/
def toJsonEntries : List (Expr α × Expr α) → List Json
  | [] => []
  | (k, v) :: rest =>
    .object [("mapKey", toJson k), ("value", toJson v)] :: toJsonEntries rest

end

/-- An expression in the structured format, its nodes numbered by their marks. -/
def structuredBy (indent : Nat) (e : Expr α) : String := (e.toJson id).text indent

end

/-- A tree in the structured format. -/
def structured (indent : Nat) (e : Tree) : String := e.structuredBy (fun m => m.id) indent

end Expr

end CelShell
