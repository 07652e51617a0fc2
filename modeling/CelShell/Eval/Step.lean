import CelShell.Eval.Builtin
import CelShell.Expr.Basic

/-!
# Steps of an evaluation

What a node makes of the evaluations of its parts. An evaluation is a computation that gives a
value or an error, with whatever else the functions of the host do in a monad of their choice; the
parts are given as suspended evaluations, so that a connective, a conditional or a loop decides
itself which of them take place. `quit` goes through every one of these steps at once.
-/

namespace CelShell

/-- An evaluation to a result, in the monad of the host. -/
abbrev Evaluation (m : Type → Type) (α : Type) := ExceptT EvalError m α

/-- An evaluation that has not begun. -/
abbrev Suspended (m : Type → Type) := Unit → Evaluation m Value

namespace Evaluation

variable {m : Type → Type} [Monad m]

/-- How an evaluation ends, as a value. -/
def outcome (e : Evaluation m α) : Evaluation m (Except EvalError α) := ExceptT.lift e.run

/-- The evaluation that ends in a given way. -/
def ended (result : Except EvalError α) : Evaluation m α := ExceptT.mk (pure result)

/-- The error of arguments that a function does not take. -/
def refuse (function : String) (args : List Value) : Evaluation m α := ended (refused function args)

/-- The values of some evaluations, one after the other. -/
def all : List (Suspended m) → Evaluation m (List Value)
  | [] => return []
  | e :: rest => do
    let v ← e ()
    return v :: (← all rest)

/-! ## Connectives and the conditional -/

/-- Whether the outcome of one operand settles a connective that one truth value absorbs. -/
def settles (absorbing : Bool) : Except EvalError Value → Bool
  -- To quit is final, whatever the other operand would give.
  | .error .quit => true
  | .ok (.bool b) => b == absorbing
  | _ => false

/-- A connective that one truth value absorbs: `false` for a conjunction, `true` for a
disjunction. An error of one operand is dropped when the other settles the result. -/
def connective (function : String) (absorbing : Bool) (left right : Suspended m) :
    Evaluation m Value := do
  let l ← outcome (left ())
  if settles absorbing l then ended l
  else
    -- An error on the left waits for what the right gives.
    let r ← outcome (right ())
    if settles absorbing r then ended r
    else
      -- Neither settles it, so an error counts, that of the left operand first.
      match ← ended l, ← ended r with
      | .bool _, .bool _ => return .bool !absorbing
      | a, b => refuse function [a, b]

/-- The conditional: only the chosen branch is evaluated. -/
def conditional (condition yes no : Suspended m) : Evaluation m Value := do
  match ← condition () with
  | .bool true => yes ()
  | .bool false => no ()
  | v => refuse Operator.conditional [v]

/-- A call without a target. The connectives and the conditional choose among their operands; any
other function gets the values of all its arguments. -/
def call (function : String) (apply : List Value → Evaluation m Value) (args : List (Suspended m)) :
    Evaluation m Value :=
  match BinaryOp.ofFunction? function, args with
  | some .and, [left, right] => connective function false left right
  | some .or, [left, right] => connective function true left right
  -- The conditional has no symbol of its own among the operators.
  | none, [condition, yes, no] =>
    if function = Operator.conditional then conditional condition yes no
    else do apply (← all args)
  | _, args => do apply (← all args)

/-! ## Maps -/

/-- A map of entries, after those that it has already. -/
def mapOf (entries : List (MapKey × Value)) : List (Suspended m × Suspended m) → Evaluation m Value
  | [] => return .map entries
  | (k, v) :: rest => do
    let key ← k ()
    let value ← v ()
    -- The value has been evaluated by now, so its error comes before that of the key.
    match key.toKey? with
    | none => ended (.error (.keyType key.typeName))
    | some known =>
      if Table.contains entries known then ended (.error (.repeatedKey key.text))
      else mapOf (Table.insert entries known value) rest

/-! ## Loops -/

/-- The truth value that the body of a loop has to give. -/
def truth (loop : Loop) : Value → Evaluation m Bool
  | .bool b => return b
  | v => refuse loop.name [v]

/-- The results of a body for the items. -/
def collect (body : Value → Evaluation m Value) : List Value → Evaluation m (List Value)
  | [] => return []
  | v :: rest => do
    let result ← body v
    return result :: (← collect body rest)

/-- The items of which the body holds. -/
def keep (loop : Loop) (body : Value → Evaluation m Value) : List Value → Evaluation m (List Value)
  | [] => return []
  | v :: rest => do
    let held ← truth loop (← body v)
    let kept ← keep loop body rest
    return if held then v :: kept else kept

/-- Looks for an item for which the body gives the deciding truth value. Errors of the body are
put off; without a deciding item the first of them counts. -/
def search (loop : Loop) (deciding : Bool) (body : Value → Evaluation m Value)
    (deferred : Option EvalError) : List Value → Evaluation m Value
  | [] =>
    match deferred with
    | some error => ended (.error error)
    | none => return .bool !deciding
  | v :: rest => do
    match ← outcome (body v) with
    | .error .quit => ended (.error .quit)
    | .error error => search loop deciding body (some (deferred.getD error)) rest
    -- A result that is no truth value ends the loop at once, unlike an error of the body.
    | .ok result =>
      if (← truth loop result) = deciding then return .bool deciding
      else search loop deciding body deferred rest

/-- A loop over items. -/
def loop (kind : Loop) (body : Value → Evaluation m Value) (items : List Value) :
    Evaluation m Value :=
  match kind with
  | .all => search kind false body none items
  | .any => search kind true body none items
  | .one => do return .bool ((← keep kind body items).length == 1)
  | .map => do return .list (← collect body items)
  | .filter => do return .list (← keep kind body items)

end Evaluation

end CelShell
