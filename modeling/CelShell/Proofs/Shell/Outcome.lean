import CelShell.Proofs.Eval.Valuation
import CelShell.Proofs.Shell.Transcript

/-!
# What becomes of a line

A line that is not blank is recorded, has an outcome, and is answered with the report of it
(`Shell.respond_eq`). The outcome is the value of the line or the failure of one of the stages that
it goes through; a stage that finds issues finds at least one (`Shell.found_of_outcome`).
-/

namespace CelShell

namespace Shell

/-- The line as it is recorded. -/
def entryOf (s : Shell) (line : String) : Entry := ⟨lineText line, s.env.compile (lineText line)⟩

/-- The shell that has recorded a line. -/
def recorded (s : Shell) (line : String) : Shell :=
  { s with session := s.session.record (s.entryOf line) }

/-- The value of a line, or why it has none. -/
def outcome (s : Shell) (line : String) : Except Failure Value :=
  ((s.entryOf line).compiled.mapError .issues).bind (s.recorded line).evaluate

variable {s : Shell} {line : String}

/-- A line that is not blank is recorded, and its outcome is reported. -/
theorem respond_eq (h : isBlank (lineText line) = false) (s : Shell) :
    s.respond line =
      ⟨s.recorded line, (report (s.outcome line)).1, (report (s.outcome line)).2⟩ :=
  respond_of_not_blank h s

/-- What is read from a line has the value of the line. -/
theorem outcome_of_compile {c : Compiled} (h : s.env.compile (lineText line) = .ok c) :
    s.outcome line =
      s.env.valueOf s.check (Introspection.bindings (s.recorded line).session) c := by
  unfold outcome entryOf
  rw [h]
  rfl

/-- A line that cannot be read has its one issue. -/
theorem outcome_of_compile_error {issues : Issues}
    (h : s.env.compile (lineText line) = .error issues) :
    s.outcome line = .error (.issues issues) := by
  unfold outcome entryOf
  rw [h]
  rfl

end Shell

/-- A check that fails finds something. -/
theorem Expr.errors_ne_nil {e : Tree} {d : Declarations} {errors : List TypeError}
    (h : e.check d = .error errors) : errors ≠ [] := by
  unfold check at h
  dsimp only at h
  split at h
  · cases h
  · next hsome =>
    rw [← Except.error.inj h]
    exact fun hnil => hsome (List.isEmpty_iff.mpr hnil)

namespace Environment

variable {env : Environment} {check : Bool} {b : Bindings} {c : Compiled} {is : Issues}

/-- An expression has issues only if it does not pass the check, and then at least one. -/
theorem found_of_valueOf (h : env.valueOf check b c = .error (.issues is)) : is.found ≠ [] := by
  -- Without the check there is a value, a missing function or an error of the evaluation.
  have hvalue : valueIn b c.expr ≠ .error (.issues is) := by
    rw [valueIn_eq]
    cases c.expr.missing? b with
    | some name => exact nofun
    | none =>
      show (c.expr.eval b [] []).mapError Failure.evaluation ≠ _
      cases c.expr.eval b [] [] <;> exact nofun
  cases check with
  | false => exact absurd h hvalue
  | true =>
    cases hcheck : env.check c with
    | ok checked => exact absurd (valueOf_checked hcheck ▸ h) hvalue
    | error issues =>
      rw [valueOf_refused hcheck] at h
      obtain ⟨errors, herrors, rfl⟩ := check_eq_error hcheck
      obtain rfl := Failure.issues.inj (Except.error.inj h)
      exact fun hnil => Expr.errors_ne_nil herrors (List.map_eq_nil_iff.mp hnil)

end Environment

namespace Shell

variable {s : Shell} {line : String}

/-- A line that fails for issues has at least one. -/
theorem found_of_outcome {is : Issues} (h : s.outcome line = .error (.issues is)) :
    is.found ≠ [] := by
  cases hcompile : s.env.compile (lineText line) with
  | ok c =>
    rw [outcome_of_compile hcompile] at h
    exact Environment.found_of_valueOf h
  | error issues =>
    rw [outcome_of_compile_error hcompile] at h
    obtain rfl := Failure.issues.inj (Except.error.inj h)
    obtain ⟨e, -, rfl⟩ := Environment.compile_eq_error hcompile
    exact List.cons_ne_nil _ _

end Shell

end CelShell
