import CelShell.Proofs.Environment
import CelShell.Proofs.Eval.Parametric
import CelShell.Proofs.Typing.Locality

/-!
# The value of an expression that was read

An expression that was read is checked, gets the functions of a host and is evaluated. Each of these
stages may be the one that fails (`Environment.valueOf_refused`, `valueOf_checked`, `valueIn_eq`).
What comes of that depends on the declarations and on the functions of the host only where the
expression calls them (`Environment.valueOf_congr`), and it is an error of the evaluation only if
there is a program to evaluate (`Environment.valueOf_eq_evaluation_iff`).
-/

namespace CelShell

namespace Environment

/-- The value of an expression that was read, in a host. -/
def valueOf (env : Environment) (check : Bool) (bindings : Bindings) (c : Compiled) :
    Except Failure Value := do
  let checked ← if check then (env.check c).mapError .issues else .ok c
  let program ← (Program.build checked.expr bindings).mapError .program
  (program.eval []).mapError .evaluation

/-- The value of an expression in a host, without a check. -/
def valueIn (b : Bindings) (e : Tree) : Except Failure Value := do
  let program ← (Program.build e b).mapError .program
  (program.eval []).mapError .evaluation

variable {env env' : Environment} {b b' : Bindings} {c checked : Compiled} {issues : Issues}

/-! ## Stages -/

/-- An expression that passes the check has the value that it has without it. -/
theorem valueOf_checked (h : env.check c = .ok checked) :
    env.valueOf true b c = valueIn b c.expr := by
  rw [← check_expr h]
  unfold valueOf
  rw [if_pos rfl, h]
  rfl

/-- An expression that does not pass the check has its issues. -/
theorem valueOf_refused (h : env.check c = .error issues) :
    env.valueOf true b c = .error (.issues issues) := by
  unfold valueOf
  rw [if_pos rfl, h]
  rfl

/-- The value of an expression is that of its program, if there is one. -/
theorem valueIn_eq (b : Bindings) (e : Tree) :
    valueIn b e =
      match e.missing? b with
      | some name => .error (.program (.unknownFunction name))
      | none => (e.eval b [] []).mapError .evaluation := by
  unfold valueIn Program.build
  cases e.missing? b <;> rfl

/-! ## What a value depends on -/

/-- A value depends on the variables, and on the declarations and functions that the expression
calls. -/
theorem valueOf_congr (check : Bool)
    (hvariables : env.declared.variableTypes = env'.declared.variableTypes)
    (hfunctions : ∀ f ∈ c.expr.called, env.declared.function? f = env'.declared.function? f)
    (hbindings : ∀ f ∈ c.expr.called, Table.get? b f = Table.get? b' f) :
    env.valueOf check b c = env'.valueOf check b' c := by
  -- Both the check and the value depend on what is called alone.
  have hcheck : env.check c = env'.check c := by
    unfold Environment.check
    rw [Expr.check_congr hvariables hfunctions]
  have hvalue : valueIn b c.expr = valueIn b' c.expr := by
    rw [valueIn_eq, valueIn_eq, Expr.missing?_congr hbindings, Expr.eval_congr hbindings]
  cases check with
  | false => exact hvalue
  | true =>
    cases hchecked : env'.check c with
    | error issues => rw [valueOf_refused (hcheck.trans hchecked), valueOf_refused hchecked]
    | ok checked => rw [valueOf_checked (hcheck.trans hchecked), valueOf_checked hchecked, hvalue]

/-! ## Programs -/

/-- The program that gives an expression that was read its value, if it comes to one. -/
def program? (env : Environment) (check : Bool) (bindings : Bindings) (c : Compiled) :
    Option Program :=
  (if check then (env.check c).toOption else some c).bind fun checked =>
    (Program.build checked.expr bindings).toOption

/-- A program has the functions that it was built with. -/
theorem bindings_program? {check : Bool} {p : Program} (h : env.program? check b c = some p) :
    p.bindings = b := by
  obtain ⟨checked, -, hbuild⟩ := Option.bind_eq_some_iff.mp h
  unfold Program.build at hbuild
  split at hbuild
  · cases hbuild
  · obtain rfl := Option.some.inj hbuild
    rfl

/-- The evaluation of an expression fails if and only if there is a program and it fails. -/
theorem valueOf_eq_evaluation_iff {check : Bool} {e : EvalError} :
    env.valueOf check b c = .error (.evaluation e) ↔
      ∃ p, env.program? check b c = some p ∧ p.eval [] = .error e := by
  -- Without a program the failure is another one.
  have hvalue : ∀ tree : Tree, valueIn b tree = .error (.evaluation e) ↔
      ∃ p, (Program.build tree b).toOption = some p ∧ p.eval [] = .error e := by
    intro tree
    unfold valueIn
    cases Program.build tree b with
    | error err => exact ⟨nofun, nofun⟩
    | ok p =>
      show (p.eval []).mapError Failure.evaluation = _ ↔ ∃ q, some p = some q ∧ _
      simp only [Option.some.injEq, exists_eq_left']
      cases p.eval [] with
      | ok v => exact ⟨nofun, nofun⟩
      | error err =>
        show Except.error (Failure.evaluation err) = _ ↔ _
        simp only [Except.error.injEq, Failure.evaluation.injEq]
  unfold program?
  cases check with
  | false => exact hvalue c.expr
  | true =>
    cases hcheck : env.check c with
    | error issues =>
      rw [valueOf_refused hcheck]
      exact ⟨nofun, nofun⟩
    | ok checked =>
      rw [valueOf_checked hcheck, ← check_expr hcheck]
      exact hvalue checked.expr

end Environment

end CelShell
