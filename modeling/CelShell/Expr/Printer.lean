import CelShell.Expr.Basic

/-!
# Printing expressions

The canonical source text of an expression. An operand is put into parentheses exactly when its
outermost construct binds looser than its place demands, so the text reads back as the same tree
and no pair of parentheses is idle.
-/

namespace CelShell

namespace Literal

/-- Whether a constant is written with a minus sign, so that it binds as a negation does. -/
def isNegative : Literal → Bool
  | int n => n < 0
  | double d => d.negative
  | _ => false

end Literal

namespace Expr

/-- How tightly the outermost construct of an expression binds. -/
def binding : Expr α → Nat
  | call _ function [_, _, _] =>
    if function = Operator.conditional then Binding.conditional else Binding.member
  | call _ function [_, _] => ((BinaryOp.ofFunction? function).map (·.binding)).getD Binding.member
  | call _ function [_] =>
    if (UnaryOp.ofFunction? function).isSome then Binding.unary else Binding.member
  | literal _ value => if value.isNegative then Binding.unary else Binding.member
  | _ => Binding.member

/-- A text in parentheses if a construct binds looser than its place demands. -/
def parenthesize (binding demanded : Nat) (text : String) : String :=
  if binding < demanded then "(" ++ text ++ ")" else text

mutual

/-- The canonical source text of an expression. -/
def text : Expr α → String
  | ident _ name => name
  | literal _ value => value.text
  | select _ operand field testOnly =>
    let selected := parenthesize operand.binding Binding.member operand.text ++ "." ++ field
    if testOnly then "has(" ++ selected ++ ")" else selected
  | call _ function args =>
    match args with
    | [a, b] =>
      match BinaryOp.ofFunction? function with
      | some op =>
        parenthesize a.binding op.binding a.text ++ " " ++ op.text ++ " "
          ++ parenthesize b.binding (op.binding + 1) b.text
      | none =>
        if function = Operator.index then
          parenthesize a.binding Binding.member a.text ++ "[" ++ b.text ++ "]"
        else function ++ "(" ++ ", ".intercalate (textsOf [a, b]) ++ ")"
    | [a] =>
      match UnaryOp.ofFunction? function with
      | some op => op.text ++ parenthesize a.binding Binding.unary a.text
      | none => function ++ "(" ++ a.text ++ ")"
    | [a, b, c] =>
      if function = Operator.conditional then
        parenthesize a.binding Binding.or a.text ++ " ? "
          ++ parenthesize b.binding Binding.or b.text ++ " : " ++ c.text
      else function ++ "(" ++ ", ".intercalate (textsOf [a, b, c]) ++ ")"
    | args => function ++ "(" ++ ", ".intercalate (textsOf args) ++ ")"
  | invoke _ target function args =>
    parenthesize target.binding Binding.member target.text ++ "." ++ function ++ "("
      ++ ", ".intercalate (textsOf args) ++ ")"
  | list _ elements => "[" ++ ", ".intercalate (textsOf elements) ++ "]"
  | map _ entries => "\x7b" ++ ", ".intercalate (textsOfEntries entries) ++ "\x7d"
  | comprehension _ loop var range body =>
    parenthesize range.binding Binding.member range.text ++ "." ++ loop.name ++ "(" ++ var ++ ", "
      ++ body.text ++ ")"

/-- The texts of a list of expressions. -/
def textsOf : List (Expr α) → List String
  | [] => []
  | e :: rest => e.text :: textsOf rest

/-- The texts of the entries of a map. -/
def textsOfEntries : List (Expr α × Expr α) → List String
  | [] => []
  | (k, v) :: rest => (k.text ++ ": " ++ v.text) :: textsOfEntries rest

end

end Expr

end CelShell
