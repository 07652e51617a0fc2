import CelShell.Proofs.Eval.Trace
import CelShell.Proofs.Eval.Valuation
import CelShell.Proofs.History.Introspection
import CelShell.Proofs.Shell.Transcript

/-!
# How a session ends

The functions of a session ask to end it in one way: `quit` is called without arguments
(`Introspection.call_eq_quit_iff`). Evaluations pass that on whatever they are in the middle of, so
a line ends the session if and only if its evaluation comes to such a call
(`Shell.step_eq_terminated_iff`).
-/

namespace CelShell

namespace Shell

/-- The program that a line is evaluated as, if it comes to one: the line is not blank, it can be
read, it passes the check if there is one, and its functions have implementations. -/
def program? (s : Shell) (line : String) : Option Program :=
  if isBlank (lineText line) then none
  else
    match s.env.compile (lineText line) with
    | .error _ => none
    | .ok c =>
      let session := s.session.record ⟨lineText line, .ok c⟩
      s.env.program? s.check (Introspection.bindings session) c

/-- The evaluation of a line comes to a call of `quit` without arguments. -/
def ReachesQuit (s : Shell) (line : String) : Prop :=
  ∃ p, s.program? line = some p ∧
    ∃ c ∈ (p.expr.trace p.bindings.host []).2, c.function = "quit" ∧ c.args = []

/-- A session ends if and only if the evaluation asks to end it. -/
theorem report_eq_terminated_iff {r : Except Failure Value} :
    (report r).2 = .terminated ↔ r = .error (.evaluation .quit) := by
  refine ⟨fun h => ?_, fun h => by rw [h]; rfl⟩
  by_contra hne
  rw [step_report hne] at h
  cases h

/-- In a session an expression asks to end it if and only if it comes to a call of `quit` without
arguments. -/
theorem eval_eq_quit_iff (session : Session) (e : Expr α) :
    e.eval (Introspection.bindings session) [] [] = .error .quit ↔
      ∃ c ∈ (e.trace (Introspection.bindings session).host []).2,
        c.function = "quit" ∧ c.args = [] := by
  obtain ⟨hanswers, hends⟩ := e.ends_trace (Introspection.bindings session).host []
  rw [← e.trace_result, hends.eq_quit_iff]
  -- The host answers a call by the functions of the session.
  have hquits : ∀ c ∈ (e.trace (Introspection.bindings session).host []).2,
      (c.Quits ↔ c.function = "quit" ∧ c.args = []) := by
    intro c hc
    obtain ⟨before, hanswer⟩ := hanswers c hc
    rw [hanswer, Host.quits_answer_iff, Bindings.answer_host, Introspection.call_eq_quit_iff,
      Host.answer_function, Host.answer_args]
    rfl
  exact ⟨fun ⟨c, hc, h⟩ => ⟨c, hc, (hquits c hc).mp h⟩,
    fun ⟨c, hc, h⟩ => ⟨c, hc, (hquits c hc).mpr h⟩⟩

/-- A line ends the session if and only if its evaluation comes to a call of `quit` without
arguments. -/
theorem step_eq_terminated_iff (s : Shell) (line : String) :
    (s.respond line).step = .terminated ↔ s.ReachesQuit line := by
  unfold ReachesQuit program?
  cases hblank : isBlank (lineText line) with
  | true =>
    rw [respond_of_blank hblank]
    exact ⟨nofun, nofun⟩
  | false =>
    rw [respond_of_not_blank hblank, if_neg Bool.false_ne_true]
    -- Only a line that is read has a program that can come to a call.
    cases hcompiled : s.env.compile (lineText line) with
    | error issues => exact ⟨nofun, nofun⟩
    | ok c =>
      dsimp only
      rw [report_eq_terminated_iff]
      show s.env.valueOf s.check (Introspection.bindings _) c = _ ↔ _
      rw [Environment.valueOf_eq_evaluation_iff]
      refine exists_congr fun p => and_congr_right fun hp => ?_
      rw [Environment.bindings_program? hp, ← eval_eq_quit_iff,
        ← Environment.bindings_program? hp]
      rfl

/-- The demand to end the session is never absorbed. Whatever the functions of the host are and
remember, a call of one of them that asks to end the session is the last call of the evaluation, of
the host or built-in, and the result asks so too; if none asks, the result does not. To keep the
calls changes no result. So the step after a line is the last one if and only if its evaluation
comes to a call of `quit` without arguments, whatever the output is, as long as it does not fail. -/
theorem quit_is_never_absorbed :
    (∀ (α : Type) (host : Host) (values : Table String Value) (e : Expr α),
      (∀ before c after, (e.trace host values).2 = before ++ c :: after → c.byHost = true →
        c.result = .error .quit → after = [] ∧ (e.trace host values).1 = .error .quit) ∧
      ((∀ c ∈ (e.trace host values).2, c.byHost = true → c.result ≠ .error .quit) →
        (e.trace host values).1 ≠ .error .quit)) ∧
    (∀ (α : Type) (b : Bindings) (values : Table String Value) (e : Expr α),
      (e.trace b.host values).1 = e.eval b values []) ∧
    ∀ (s : Shell) (line : String),
      ((s.respond line).step = .terminated ↔ s.ReachesQuit line) ∧
      (∀ printed : String, ((submit transcribe s line).run printed).1.2 = .ok .terminated ↔
        s.ReachesQuit line) ∧
      ∀ (σ : Type) (write : Writer (StateM σ)) (w : σ) (step : Step),
        ((submit write s line).run w).1.2 = .ok step →
          (step = .terminated ↔ s.ReachesQuit line) := by
  refine ⟨?_, ?_, ?_⟩
  · intro α host values e
    obtain ⟨-, hends⟩ := e.ends_trace host values
    refine ⟨fun before c after hcalls hbyHost hresult => ?_, fun hcalls hquit => ?_⟩
    · exact hends.eq_nil_of_quits hcalls ⟨hbyHost, hresult⟩
    · obtain ⟨c, hc, hbyHost, hresult⟩ := hends.eq_quit_iff.mp hquit
      exact hcalls c hc hbyHost hresult
  · exact fun α b values e => e.trace_result b values
  · intro s line
    have hstep := step_eq_terminated_iff s line
    refine ⟨hstep, fun printed => ?_, fun σ write w step hsubmit => ?_⟩
    · rw [submit_transcribe]
      exact ⟨fun h => hstep.mp (Except.ok.inj h), fun h => congrArg Except.ok (hstep.mpr h)⟩
    · -- The step is given only if the output took the whole answer.
      rcases submit_cases write s line w with hrun | ⟨reason, hrun⟩
      · rw [hrun] at hsubmit
        rw [← Except.ok.inj hsubmit]
        exact hstep
      · rw [hrun] at hsubmit
        cases hsubmit

/-- A disjunction in a loop whose operands fail and quit: two calls, and the second ends the
session, although both the disjunction and the loop put errors off. Without `quit` the loop ends in
the error that was put off. And a first line that quits in the same way ends a session. -/
theorem quit_is_never_absorbed_in_loop :
    let host : Host := [("fail", fun _ _ => .error (.host "no")), ("quit", fun _ _ => .error .quit)]
    let loop : String → Expr Unit := fun name =>
      .comprehension () .any "x" (.list () [.literal () (.bool true), .literal () (.bool false)])
        (.call () "_||_" [.call () "fail" [], .call () name []])
    ((loop "quit").trace host []).1 = .error .quit ∧
      ((loop "fail").trace host []).1 ≠ .error .quit ∧
      ∃ start, new {} = .ok start ∧
        start.ReachesQuit "[1, 2].exists(x, 1 / 0 > 0 || quit() == null)" := by
  intro host loop
  obtain ⟨hcalls, -, hsession⟩ := quit_is_never_absorbed
  refine ⟨((hcalls Unit host [] (loop "quit")).1 [⟨"fail", [], true, .error (.host "no")⟩]
    ⟨"quit", [], true, .error .quit⟩ [] rfl rfl rfl).2, ?_, ?_⟩
  · refine (hcalls Unit host [] (loop "fail")).2 fun c hc => ?_
    -- Both operands fail for both items, and each failure is put off.
    have htrace : ((loop "fail").trace host []).2 =
        List.replicate 4 ⟨"fail", [], true, .error (.host "no")⟩ := rfl
    rw [htrace] at hc
    rw [List.eq_of_mem_replicate hc]
    exact fun _ => nofun
  · obtain ⟨start, hnew, -⟩ := new_refines {} (by decide)
    have hstep : (new {}).toOption.all (fun s => decide
        ((s.respond "[1, 2].exists(x, 1 / 0 > 0 || quit() == null)").step = .terminated)) =
          true := by decide +kernel
    rw [hnew] at hstep
    refine ⟨start, hnew, ((hsession start _).2.2 String transcribe "" .terminated ?_).mp rfl⟩
    rw [submit_transcribe]
    exact congrArg Except.ok (of_decide_eq_true hstep)

end Shell

end CelShell
