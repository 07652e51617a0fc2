import CelShell.History.Introspection
import CelShell.Proofs.Eval.NoQuit

/-!
# The functions of a session

A session binds three names. The functions that show the history differ from session to session,
and `quit` does not; a call asks to end the session if and only if it is one of `quit` without
arguments (`call_eq_quit_iff`).
-/

namespace CelShell.Introspection

/-! ## The names -/

/-- What a name is bound to. -/
theorem get?_bindings_eq (s : Session) (f : String) :
    Table.get? (bindings s) f =
      if quitName = f then some quit
      else if inspectName = f then some (inspect s)
      else if inspectIntName = f then some (inspectInt s)
      else none := rfl

/-- The functions that show the history differ from session to session, and no others. -/
theorem get?_bindings (s t : Session) {f : String} (hinspect : f ≠ inspectName)
    (hinspectInt : f ≠ inspectIntName) :
    Table.get? (bindings s) f = Table.get? (bindings t) f := by
  rw [get?_bindings_eq, get?_bindings_eq, if_neg hinspect.symm, if_neg hinspect.symm,
    if_neg hinspectInt.symm, if_neg hinspectInt.symm]

/-- The names of the functions by which an expression reaches its session. -/
def names : List String := [quitName, inspectName, inspectIntName]

/-- Sessions bind no other names. -/
theorem get?_bindings_eq_none (s : Session) {f : String} (h : f ∉ names) :
    Table.get? (bindings s) f = none := by
  have hnames : quitName ≠ f ∧ inspectName ≠ f ∧ inspectIntName ≠ f := by
    refine ⟨?_, ?_, ?_⟩ <;> rintro rfl <;> exact h (by decide)
  rw [get?_bindings_eq, if_neg hnames.1, if_neg hnames.2.1, if_neg hnames.2.2]

/-- Every declaration is of one of the names. -/
theorem name_mem_names {d : Declaration} (h : d ∈ declarations) : d.name ∈ names := by
  have hall : ∀ d ∈ declarations, d.name ∈ names := by decide
  exact hall d h

/-! ## Calls -/

/-- To show the history does not end the session. -/
theorem stays_inspect (s : Session) (args : List Value) : Stays (inspect s args) := by
  unfold inspect
  split
  · exact .ok _
  · exact .ok _
  · exact .ok _
  · exact .ok _
  · exact .refused _ _

/-- To show the history for an int does not end the session. -/
theorem stays_inspectInt (s : Session) (args : List Value) : Stays (inspectInt s args) := by
  unfold inspectInt
  split
  · exact stays_inspect s _
  · exact stays_inspect s _
  · exact .refused _ _

/-- `quit` ends the session if it is called without arguments, and refuses any. -/
theorem quit_eq_quit_iff (args : List Value) : quit args = .error .quit ↔ args = [] := by
  cases args with
  | nil => exact ⟨fun _ => rfl, fun _ => rfl⟩
  | cons v rest => exact ⟨nofun, nofun⟩

/-- In a session the calls that ask to end it are those of `quit` without arguments. -/
theorem call_eq_quit_iff (s : Session) (function : String) (args : List Value) :
    (bindings s).call function args = .error .quit ↔ function = quitName ∧ args = [] := by
  by_cases hquit : function = quitName
  · subst hquit
    show quit args = .error .quit ↔ _
    rw [quit_eq_quit_iff]
    exact ⟨fun h => ⟨rfl, h⟩, And.right⟩
  · refine ⟨fun h => ?_, fun h => absurd h.1 hquit⟩
    by_cases hinspect : function = inspectName
    · subst hinspect
      exact absurd h (stays_inspect s args)
    by_cases hinspectInt : function = inspectIntName
    · subst hinspectInt
      exact absurd h (stays_inspectInt s args)
    -- Any other function is built in, and none of those asks to end the session.
    have hget : Table.get? (bindings s) function = none := by
      refine get?_bindings_eq_none s fun hmem => ?_
      simp only [names, List.mem_cons, List.not_mem_nil, or_false] at hmem
      exact hmem.elim hquit fun h => h.elim hinspect hinspectInt
    unfold Bindings.call at h
    rw [hget] at h
    exact absurd h (Builtin.stays_call function args)

end CelShell.Introspection
