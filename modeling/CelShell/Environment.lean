import CelShell.Eval.Program
import CelShell.Expr.Parser
import CelShell.Source.Issue
import CelShell.Typing.Check

/-!
# Environments

The way from a source text to a program: `compile` reads the text, `check` finds its type, and
`Program.build` gives it functions. What is wrong with a text is reported as issues of that text.
-/

namespace CelShell

/-- The name of entered texts in messages. -/
def inputName : String := "<input>"

/-- An expression with its source, and with its type once it is checked. -/
structure Compiled where
  /-- The expression. -/
  expr : Tree
  /-- The text. -/
  source : SourceText
  /-- The type, if the expression is checked. -/
  type : Option Ty

/-- How texts are read, and what names stand for in them. -/
structure Environment where
  /-- Whether macros are expanded. -/
  macrosOn : Bool
  /-- The functions and variables. -/
  declared : Declarations

namespace Environment

/-- The environment with the standard functions. -/
def standard (macrosOn : Bool) : Environment := ⟨macrosOn, .standard⟩

/-- The expression of a text, or the one issue of its syntax. -/
def compile (env : Environment) (text : String) : Except Issues Compiled :=
  let source : SourceText := ⟨inputName, text⟩
  match Expr.parse text env.macrosOn with
  | .ok expr => .ok ⟨expr, source, none⟩
  | .error e => .error ((Issues.none source).push (.about e.text (some e.span)))

/-- The issue of a type error. -/
def issueOf (e : TypeError) : Issue := .about e.fault.text (some e.span)

/-- The expression with its type, or the issues of its types. -/
def check (env : Environment) (c : Compiled) : Except Issues Compiled :=
  match c.expr.check env.declared with
  | .ok ty => .ok { c with type := some ty }
  | .error errors => .error ⟨c.source, errors.map issueOf⟩

end Environment

/-- Why a text has no value. -/
inductive Failure where
  /-- The text has issues. -/
  | issues (issues : Issues)
  /-- The program is not built. -/
  | program (error : ProgramError)
  /-- The evaluation ends in an error. -/
  | evaluation (error : EvalError)
  deriving DecidableEq

/-- The text of a failure. -/
def Failure.text : Failure → String
  | issues i => i.text
  | program e => e.text
  | evaluation e => e.text

/-- The value of a text in the standard environment, without variables or bound functions. -/
def evalText (text : String) : Except Failure Value := do
  let env := Environment.standard true
  let compiled ← (env.compile text).mapError .issues
  let checked ← (env.check compiled).mapError .issues
  let program ← (Program.build checked.expr []).mapError .program
  (program.eval []).mapError .evaluation

end CelShell
