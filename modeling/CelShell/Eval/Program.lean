import CelShell.Eval.Basic

/-!
# Programs

An expression with the functions that the host binds to names. A bound function comes before a
built-in one of its name. A program is built only if every function that it calls has an
implementation, so an evaluation never finds one missing.
-/

namespace CelShell

/-- A function of the host; the target of a call is its first argument. -/
abbrev Handler := List Value → Except EvalError Value

/-- The functions of the host, by name. -/
abbrev Bindings := Table String Handler

namespace Bindings

/-- A call of the function that a name is bound to, or else of the built-in one. -/
def call (bindings : Bindings) (function : String) (args : List Value) : Except EvalError Value :=
  match Table.get? bindings function with
  | some handler => handler args
  | none => Builtin.call function args

/-- Whether a function has an implementation. -/
def implements (bindings : Bindings) (function : String) : Bool :=
  Table.contains bindings function || Builtin.isName function

/-- What expressions need, from bindings and the values of variables. -/
def interface (bindings : Bindings) (values : Table String Value) : Interface Id :=
  ⟨values, bindings.call⟩

end Bindings

namespace Expr

/-- The value of an expression. -/
def eval (bindings : Bindings) (values scope : Table String Value) (e : Expr α) :
    Except EvalError Value :=
  (e.evaluate (bindings.interface values) scope).run

/-- The first function that an expression calls and that has no implementation. -/
def missing? (bindings : Bindings) (e : Expr α) : Option String :=
  (e.nodes.filterMap Expr.function?).find? fun f => !bindings.implements f

end Expr

/-- Why a program is not built. -/
inductive ProgramError where
  /-- A function has no implementation. -/
  | unknownFunction (name : String)
  deriving DecidableEq, Repr

/-- The text of an error. -/
def ProgramError.text : ProgramError → String
  | unknownFunction name => "no implementation for function '" ++ name ++ "'"

/-- An expression and the functions of its host. -/
structure Program where
  /-- The expression. -/
  expr : Tree
  /-- The functions of the host. -/
  bindings : Bindings

namespace Program

/-- The program of an expression, if every function that it calls has an implementation. -/
def build (expr : Tree) (bindings : Bindings) : Except ProgramError Program :=
  match expr.missing? bindings with
  | some name => .error (.unknownFunction name)
  | none => .ok ⟨expr, bindings⟩

/-- The value of a program for given variables. -/
def eval (p : Program) (values : Table String Value) : Except EvalError Value :=
  p.expr.eval p.bindings values []

end Program

end CelShell
