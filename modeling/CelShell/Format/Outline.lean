import CelShell.Expr.Basic

/-!
# The tree format

An expression as an outline, one line for each node, with tabs for its depth. The arguments of a
call, the elements of a list, the entries of a map and the two parts of a comprehension are one
level deeper; a field selection is written after its operand and opens no level. The target of a
call is not shown.
-/

namespace CelShell

namespace Literal

/-- The name of the type of a constant in the outline. -/
def typeTag : Literal → String
  | null => "unknown"
  | bool _ => "bool"
  | int _ => "int64"
  | uint _ => "uint64"
  | double _ => "double"
  | string _ => "string"

/-- The value of a constant in the outline, a text without quotes. -/
def valueText : Literal → String
  | null => "null"
  | bool b => boolText b
  | int n => Number.int64Text n
  | uint n => Number.uint64Text n
  | double d => d.text .plain
  | string s => s

end Literal

namespace Expr

/-- The start of a new line at a depth. -/
def outlineStart (depth : Nat) : String := "\n" ++ String.ofList (List.replicate depth '\t')

mutual

/-- The outline of an expression whose line, at a depth, has been started. -/
def outlineAt (depth : Nat) : Expr α → String
  | ident _ name => "(ident: " ++ name ++ ")"
  | literal _ value => "(const<" ++ value.typeTag ++ ">: " ++ value.valueText ++ ")"
  | select _ operand field _ => outlineAt depth operand ++ "." ++ field
  | call _ function args | invoke _ _ function args =>
    "(call: " ++ function ++ ")" ++ outlineList (depth + 1) args
  | list _ elements => "(list)" ++ outlineList (depth + 1) elements
  | map _ entries => "(map)" ++ outlineEntries (depth + 1) entries
  | comprehension _ loop var range body =>
    "(comprehension: " ++ loop.name ++ " " ++ var ++ ")"
      ++ outlineStart (depth + 1) ++ outlineAt (depth + 1) range
      ++ outlineStart (depth + 1) ++ outlineAt (depth + 1) body

/-- The outlines of expressions, each from a line of its own on. -/
def outlineList (depth : Nat) : List (Expr α) → String
  | [] => ""
  | e :: rest => outlineStart depth ++ outlineAt depth e ++ outlineList depth rest

/-- The outlines of entries, the key and the value one level below the line of the entry. -/
def outlineEntries (depth : Nat) : List (Expr α × Expr α) → String
  | [] => ""
  | (k, v) :: rest =>
    outlineStart depth ++ "(entry)" ++ outlineStart (depth + 1) ++ outlineAt (depth + 1) k
      ++ outlineStart (depth + 1) ++ outlineAt (depth + 1) v ++ outlineEntries depth rest

end

/-- An expression in the tree format. -/
def outline (e : Expr α) : String := outlineAt 0 e

end Expr

end CelShell
