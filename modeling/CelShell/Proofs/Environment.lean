import CelShell.Environment

/-!
# What an environment makes of a text

A text is compiled to the tree that it is read as, and a check keeps this tree. Where there is no
tree or no type the text has issues: the one error of its syntax, or the errors of its types.
-/

namespace CelShell

namespace Environment

variable {env : Environment} {text : String} {c checked : Compiled} {issues : Issues}

/-- What is read from a text is the expression of the text. -/
theorem compile_eq_ok (h : env.compile text = .ok c) :
    Expr.parse text env.macrosOn = .ok c.expr ∧ c.source = ⟨inputName, text⟩ := by
  unfold compile at h
  cases hparse : Expr.parse text env.macrosOn with
  | ok expr =>
    rw [hparse] at h
    obtain rfl := Except.ok.inj h
    exact ⟨rfl, rfl⟩
  | error e =>
    rw [hparse] at h
    cases h

/-- The issue of a text that is not read is the error of its syntax. -/
theorem compile_eq_error (h : env.compile text = .error issues) :
    ∃ e, Expr.parse text env.macrosOn = .error e ∧
      issues = ⟨⟨inputName, text⟩, [.about e.text (some e.span)]⟩ := by
  unfold compile at h
  cases hparse : Expr.parse text env.macrosOn with
  | ok expr =>
    rw [hparse] at h
    cases h
  | error e =>
    rw [hparse] at h
    exact ⟨e, rfl, (Except.error.inj h).symm⟩

/-- An expression that passes gets its type. -/
theorem check_eq_ok (h : env.check c = .ok checked) :
    ∃ ty, c.expr.check env.declared = .ok ty ∧ checked = { c with type := some ty } := by
  unfold check at h
  split at h
  · next ty hty => exact ⟨ty, hty, (Except.ok.inj h).symm⟩
  · cases h

/-- To check an expression does not change it. -/
theorem check_expr (h : env.check c = .ok checked) : checked.expr = c.expr := by
  obtain ⟨ty, -, rfl⟩ := check_eq_ok h
  rfl

/-- The issues of an expression that has no type are the errors of its types. -/
theorem check_eq_error (h : env.check c = .error issues) :
    ∃ errors, c.expr.check env.declared = .error errors ∧
      issues = ⟨c.source, errors.map issueOf⟩ := by
  unfold check at h
  cases hcheck : c.expr.check env.declared with
  | ok ty =>
    rw [hcheck] at h
    cases h
  | error errors =>
    rw [hcheck] at h
    exact ⟨errors, rfl, (Except.error.inj h).symm⟩

end Environment

end CelShell
