import CelShell.Expr.Basic
import CelShell.Typing.Standard

/-!
# Type checking

`Expr.infer` finds the type of a tree from the types of its parts. A part that cannot be typed is
reported and counts as `dyn`, so that one pass finds every independent error; the errors come in
the order in which the parts are visited, those of the parts before that of the whole.
-/

namespace CelShell

/-- Why an expression has no type. -/
inductive TypeFault where
  /-- A variable or function is not declared. -/
  | undeclared (name : String)
  /-- No overload of a function accepts the arguments. -/
  | noOverload (function : String) (args : List Ty)
  /-- An expression has another type than it must. -/
  | mismatch (expected found : Ty)
  /-- A type has no fields. -/
  | noFields (ty : Ty)
  /-- A type has no elements to run over. -/
  | noItems (ty : Ty)
  /-- A type cannot be that of a key. -/
  | mapKey (ty : Ty)
  deriving DecidableEq, Repr

/-- The text of a fault. -/
def TypeFault.text : TypeFault → String
  | undeclared name => "undeclared reference to '" ++ name ++ "'"
  | noOverload function args =>
    "found no matching overload for '" ++ function ++ "' applied to '(" ++ Ty.listText args ++ ")'"
  | mismatch expected found =>
    "expected type '" ++ expected.text ++ "' but found '" ++ found.text ++ "'"
  | noFields ty => "type '" ++ ty.text ++ "' does not support field selection"
  | noItems ty =>
    "expression of type '" ++ ty.text ++ "' cannot be the range of a comprehension"
  | mapKey ty => "unsupported map key type: " ++ ty.text

/-- A fault and its place. -/
structure TypeError where
  /-- What is wrong. -/
  fault : TypeFault
  /-- Where. -/
  span : Span
  deriving DecidableEq, Repr

/-- A type, and the errors met on the way to it. -/
structure Inferred (α : Type) where
  /-- The type or types. -/
  value : α
  /-- The errors, in order. -/
  errors : List TypeError
  deriving DecidableEq, Repr

namespace Inferred

/-- Types are inferred in sequence. The errors of all parts are kept, in order, and nothing stops at
the first. -/
instance : Monad Inferred where
  pure value := ⟨value, []⟩
  bind first next := ⟨(next first.value).value, first.errors ++ (next first.value).errors⟩

/-- Reports an error. -/
def report (fault : TypeFault) (span : Span) : Inferred Unit := ⟨(), [⟨fault, span⟩]⟩

/-- Reports an error; the part at fault counts as `dyn`. -/
def fail (fault : TypeFault) (span : Span) : Inferred Ty := ⟨.dyn, [⟨fault, span⟩]⟩

end Inferred

/-- The operators that are typed by the shapes of their operands alone. -/
def Operator.isStructural (function : String) : Bool :=
  function == conditional || function == index || function == BinaryOp.member.function
    || function == BinaryOp.equals.function || function == BinaryOp.notEquals.function

/-- The type of an operator that is typed by the shapes of its operands. -/
def Ty.structural? (function : String) : List Ty → Option Ty
  | [a, b] =>
    if function = Operator.index then
      match a with
      | list element => if int.accepts b then some element else none
      | map key value => if key.accepts b then some value else none
      | dyn => some dyn
      | _ => none
    else if function = BinaryOp.member.function then
      match b with
      | list element => if element.accepts a then some bool else none
      | map key _ => if key.accepts a then some bool else none
      | dyn => some bool
      | _ => none
    else if function = BinaryOp.equals.function ∨ function = BinaryOp.notEquals.function then
      -- Anything may be compared with null.
      if a.accepts b || a == null || b == null then some bool else none
    else if function = BinaryOp.add.function then
      match a, b with
      -- Numbers and texts are added by overloads, lists by their shape.
      | list x, list y => some (list (x.join y))
      | _, _ => none
    else none
  | [a, b, c] =>
    if function = Operator.conditional then
      if bool.accepts a then some (b.join c) else none
    else none
  | _ => none

namespace Declarations

/-- The type of a call, from the types of the arguments, the target first if there is one. -/
def callType (d : Declarations) (function : String) (args : List Ty) (member : Bool) :
    Except TypeFault Ty :=
  match if member then none else Ty.structural? function args with
  | some ty => .ok ty
  | none =>
    -- These operators have no overloads that could help.
    if !member && Operator.isStructural function then .error (.noOverload function args)
    else
      match d.function? function with
      | none => .error (.undeclared function)
      | some f =>
        match f.resolve? args member with
        | some ty => .ok ty
        | none => .error (.noOverload function args)

end Declarations

namespace Inferred

/-- A type, or the error that there is none. -/
def ofExcept (result : Except TypeFault Ty) (span : Span) : Inferred Ty :=
  match result with
  | .ok ty => pure ty
  | .error fault => fail fault span

/-- A type that may be missing. -/
def ofOption (result : Option Ty) (fault : TypeFault) (span : Span) : Inferred Ty :=
  match result with
  | some ty => pure ty
  | none => fail fault span

end Inferred

/-- The type of a loop, from those of its variable and its body. -/
def Loop.resultType (item body : Ty) : Loop → Ty
  | all | any | one => .bool
  | map => .list body
  | filter => .list item

namespace Expr

open Inferred

mutual

/-- The type of a tree. The scope holds the variables of the loops around it, innermost first. -/
def infer (d : Declarations) (scope : Table String Ty) : Tree → Inferred Ty
  | literal _ value => pure (Ty.ofLiteral value)
  | ident m name =>
    -- A variable of a loop comes before a declared one.
    match scope.get? name with
    | some ty => pure ty
    | none => ofOption (d.variableTypes.get? name) (.undeclared name) m.span
  | select m operand _ testOnly => do
    let ty ← infer d scope operand
    match ty.field? with
    | some field => pure (if testOnly then .bool else field)
    | none => fail (.noFields ty) m.span
  | call m function args => do
    let types ← inferList d scope args
    ofExcept (d.callType function types false) m.span
  | invoke m target function args => do
    let ty ← infer d scope target
    let types ← inferList d scope args
    ofExcept (d.callType function (ty :: types) true) m.span
  | list _ elements => do
    let types ← inferList d scope elements
    pure (.list (Ty.joinAll types))
  | map _ entries => do
    let types ← inferEntries d scope entries
    pure (.map (Ty.joinAll (types.map Prod.fst)) (Ty.joinAll (types.map Prod.snd)))
  | comprehension _ loop var range body => do
    let rangeType ← infer d scope range
    let varType ← ofOption rangeType.item? (.noItems rangeType) range.mark.span
    let bodyType ← infer d ((var, varType) :: scope) body
    -- The error is kept, and the loop has its type all the same.
    if loop.isPredicate && !Ty.bool.accepts bodyType then
      report (.mismatch .bool bodyType) body.mark.span
    pure (loop.resultType varType bodyType)

/-- The types of trees. -/
def inferList (d : Declarations) (scope : Table String Ty) : List Tree → Inferred (List Ty)
  | [] => pure []
  | e :: rest => do
    let ty ← infer d scope e
    let types ← inferList d scope rest
    pure (ty :: types)

/-- The types of the keys and values of entries. -/
def inferEntries (d : Declarations) (scope : Table String Ty) :
    List (Tree × Tree) → Inferred (List (Ty × Ty))
  | [] => pure []
  | (k, v) :: rest => do
    let keyType ← infer d scope k
    -- The rest of the entries is typed after the report as well.
    if !keyType.isMapKey then report (.mapKey keyType) k.mark.span
    let valueType ← infer d scope v
    let types ← inferEntries d scope rest
    pure ((keyType, valueType) :: types)

end

/-- The type of a tree, or every error in it. -/
def check (e : Tree) (d : Declarations) : Except (List TypeError) Ty :=
  let inferred := e.infer d []
  if inferred.errors.isEmpty then .ok inferred.value else .error inferred.errors

end Expr

end CelShell
