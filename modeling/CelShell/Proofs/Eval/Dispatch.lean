import CelShell.Proofs.Eval.Trace

/-!
# Programs find every function

A program is built exactly if every function that its expression calls has an implementation
(`Program.build_eq_ok_iff`). The calls that an evaluation makes are of functions that the expression
calls (`Expr.function_mem_called`): that all calls which are kept have a property is one of the
relations between evaluations that every step keeps. So a program never dispatches to a built-in
function that there is not, whatever the functions of its host do and remember
(`Program.isName_of_dispatched`).
-/

namespace CelShell

/-! ## Building -/

/-- A program is built if every function has an implementation, and it is then of the expression and
the functions that were given. -/
theorem Program.build_eq_ok_iff {e : Tree} {b : Bindings} {p : Program} :
    Program.build e b = .ok p ↔ p = ⟨e, b⟩ ∧ ∀ f ∈ e.called, b.implements f = true := by
  have hmissing : e.missing? b = none ↔ ∀ f ∈ e.called, b.implements f = true := by
    show e.called.find? (fun f => !b.implements f) = none ↔ _
    simp only [List.find?_eq_none, Bool.not_eq_true', Bool.not_eq_false]
  rw [← hmissing]
  unfold Program.build
  cases e.missing? b with
  | none => exact ⟨fun h => ⟨(Except.ok.inj h).symm, rfl⟩, fun h => congrArg Except.ok h.1.symm⟩
  | some name => exact ⟨nofun, fun h => nomatch h.2⟩

/-! ## Calls that are made -/

namespace Host

/-- That the calls which are kept have a property is kept by every step of an evaluation. -/
def keeping (P : Call → Prop) :
    Evaluation.Relation (StateM (List Call)) (StateM (List Call)) where
  Rel x _ := ∀ before, (∀ c ∈ before, P c) → ∀ c ∈ (x.runFrom before).2, P c
  ended _ _ hbefore := hbefore
  bind {α β x y f g} hx hf before hbefore := by
    have hafter := hx before hbefore
    cases hrun : x.runFrom before with
    | mk r after =>
      rw [hrun] at hafter
      cases r with
      | ok a =>
        rw [Evaluation.runFrom_bind_ok hrun]
        exact hf a after hafter
      | error e =>
        rw [Evaluation.runFrom_bind_error hrun]
        exact hafter
  outcome {α β x y f g} hx hf hquit _ before hbefore := by
    have hafter := hx before hbefore
    cases hrun : x.runFrom before with
    | mk r after =>
      rw [hrun] at hafter
      rw [Evaluation.runFrom_outcome_bind hrun]
      by_cases hr : r = .error .quit
      · rw [hr, hquit]
        exact hafter
      · exact hf r hr after hafter

/-- A call goes to the host if the host has the name. -/
theorem byHost_answer (host : Host) (before : List Call) (function : String) (args : List Value) :
    (host.answer before function args).byHost = Table.contains host function := by
  unfold answer Table.contains
  cases Table.get? host function <;> rfl

end Host

/-- Bindings and the functions that remember nothing which they make have the same names. -/
theorem Bindings.contains_host (b : Bindings) (function : String) :
    Table.contains b.host function = Table.contains b function := by
  unfold Table.contains
  rw [get?_host, Option.isSome_map]

namespace Expr

variable {α : Type}

/-- An evaluation calls only functions that the expression calls. -/
theorem function_mem_called (host : Host) (values : Table String Value) (e : Expr α) :
    ∀ c ∈ (e.trace host values).2, c.function ∈ e.called := by
  have hcall : ∀ f ∈ e.called, ∀ args, (Host.keeping fun c => c.function ∈ e.called).Rel
      ((host.interface values).call f args) ((host.interface values).call f args) := by
    intro f hf args before hbefore
    refine List.forall_mem_append.mpr ⟨hbefore, List.forall_mem_singleton.mpr ?_⟩
    rwa [Host.answer_function]
  exact e.related_evaluate (Host.keeping fun c => c.function ∈ e.called)
    (i := host.interface values) rfl hcall [] [] nofun

end Expr

namespace Program

/-- A program dispatches a call to its host or to a built-in function that there is, if its host
has the names with which it was built. -/
theorem isName_of_dispatched {e : Tree} {b : Bindings} {p : Program} (h : build e b = .ok p)
    {host : Host} (hnames : ∀ f, Table.contains host f = Table.contains b f)
    (values : Table String Value) {c : Call} (hc : c ∈ (p.expr.trace host values).2)
    (hbyHost : c.byHost = false) :
    Builtin.isName c.function = true ∧ c.result = Builtin.call c.function c.args := by
  obtain ⟨rfl, himplements⟩ := build_eq_ok_iff.mp h
  obtain ⟨before, hanswer⟩ := (e.ends_trace host values).1 c hc
  -- What the host did not answer has no function there.
  have hhost : Table.get? host c.function = none := by
    rw [hanswer, Host.byHost_answer] at hbyHost
    exact Option.isNone_iff_eq_none.mp (Option.isSome_eq_false_iff.mp hbyHost)
  constructor
  · -- To be built, the program had one for it, so it is built in.
    have hfunction := himplements c.function (e.function_mem_called host values c hc)
    unfold Bindings.implements at hfunction
    rw [← hnames, Table.contains, hhost] at hfunction
    exact hfunction
  · rw [hanswer, Host.answer_function, Host.answer_args, Host.answer, hhost]

end Program

end CelShell
