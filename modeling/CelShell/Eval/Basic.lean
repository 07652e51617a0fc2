import CelShell.Eval.Step

/-!
# Evaluation

`Expr.evaluate` walks a tree. What the tree needs from outside is an `Interface`: the values of its
variables and a way to call functions. The interface of a program calls the functions that are
bound to names before the built-in ones.
-/

namespace CelShell

/-- What an expression needs from outside. -/
structure Interface (m : Type → Type) where
  /-- The values of the variables. -/
  values : Table String Value
  /-- Calls the function of a name. -/
  call : String → List Value → Evaluation m Value

namespace Expr

open Evaluation

variable {α : Type} {m : Type → Type} [Monad m]

mutual

/-- The evaluation of a tree. The scope holds the variables of the loops around it, innermost
first. -/
def evaluate (i : Interface m) (scope : Table String Value) : Expr α → Evaluation m Value
  | literal _ value => return Value.ofLiteral value
  | ident _ name =>
    match (scope.get? name).or (i.values.get? name) with
    | some v => return v
    | none => ended (.error (.noSuchAttribute name))
  | select _ operand field testOnly => do
    let v ← evaluate i scope operand
    ended (if testOnly then v.hasField field else v.field field)
  | call _ function args => Evaluation.call function (i.call function) (suspended i scope args)
  | invoke _ target function args => do
    let v ← evaluate i scope target
    i.call function (v :: (← all (suspended i scope args)))
  | list _ elements => do return .list (← all (suspended i scope elements))
  | map _ entries => mapOf [] (suspendedEntries i scope entries)
  | comprehension _ kind var range body => do
    let v ← evaluate i scope range
    match v.items? with
    | none => ended (.error (.noItems v.typeName))
    | some items => loop kind (fun item => evaluate i ((var, item) :: scope) body) items

/-- The evaluations of trees, none of them begun. -/
def suspended (i : Interface m) (scope : Table String Value) : List (Expr α) → List (Suspended m)
  | [] => []
  | e :: rest => (fun () => evaluate i scope e) :: suspended i scope rest

/-- The evaluations of keys and values, none of them begun. -/
def suspendedEntries (i : Interface m) (scope : Table String Value) :
    List (Expr α × Expr α) → List (Suspended m × Suspended m)
  | [] => []
  | (k, v) :: rest =>
    (fun () => evaluate i scope k, fun () => evaluate i scope v) :: suspendedEntries i scope rest

end

end Expr

end CelShell
