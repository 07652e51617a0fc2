import CelShell.Proofs.Eval.Valuation
import CelShell.Proofs.History.Introspection
import CelShell.Proofs.Shell.Transcript

/-!
# Lines that do not ask for the history

The value of an expression depends on the functions that it calls, and the functions of two sessions
differ in `inspect` and `inspect_int` alone. So a line that calls neither has the same answer in
all sessions of the same settings, whatever lines were answered before (`Shell.respond_congr`), and
prints the same up to its number: `Shell.submit_ignores_history`.
-/

namespace CelShell

namespace Shell

variable {settings : Settings} {s t : Shell}

/-- An expression that calls neither of the functions that show the history has the same value in
all sessions. -/
theorem evaluate_eq (henv : s.env = t.env) (hcheck : s.check = t.check) {c : Compiled}
    (hinspect : Introspection.inspectName ∉ c.expr.called)
    (hinspectInt : Introspection.inspectIntName ∉ c.expr.called) : s.evaluate c = t.evaluate c := by
  show s.env.valueOf s.check (Introspection.bindings s.session) c =
    t.env.valueOf t.check (Introspection.bindings t.session) c
  rw [henv, hcheck]
  refine Environment.valueOf_congr t.check rfl (fun _ _ => rfl) fun f hf => ?_
  exact Introspection.get?_bindings s.session t.session (fun h => hinspect (h ▸ hf))
    fun h => hinspectInt (h ▸ hf)

/-- A line whose expression calls neither of the functions that show the history has the same
answer in all sessions. -/
theorem respond_congr (hfixed : s.fixed = t.fixed) {line : String}
    (hcalls : ∀ tree, Expr.parse (lineText line) s.env.macrosOn = .ok tree →
      Introspection.inspectName ∉ tree.called ∧ Introspection.inspectIntName ∉ tree.called) :
    (s.respond line).output = (t.respond line).output ∧
      (s.respond line).step = (t.respond line).step := by
  obtain ⟨henv, hrest⟩ := Prod.mk.inj hfixed
  obtain ⟨hcheck, -⟩ := Prod.mk.inj hrest
  cases hblank : isBlank (lineText line) with
  | true =>
    rw [respond_of_blank hblank, respond_of_blank hblank]
    exact ⟨rfl, rfl⟩
  | false =>
    rw [respond_of_not_blank hblank, respond_of_not_blank hblank, ← henv]
    cases hcompiled : s.env.compile (lineText line) with
    | error issues => exact ⟨rfl, rfl⟩
    | ok c =>
      obtain ⟨hinspect, hinspectInt⟩ := hcalls c.expr (Environment.compile_eq_ok hcompiled).1
      -- Both have recorded the line, each after the lines of its own session.
      have hvalue := fun session session' => evaluate_eq (s := { s with session := session })
        (t := { t with env := s.env, session := session' }) rfl hcheck hinspect hinspectInt
      exact ⟨congrArg (fun r => (report r).1) (hvalue _ _),
        congrArg (fun r => (report r).2) (hvalue _ _)⟩

/-- All shells of some settings have the same fixed parts. -/
theorem Reachable.fixed_eq (hs : Reachable settings s) (ht : Reachable settings t) :
    s.fixed = t.fixed := by
  obtain ⟨start, lines, hnew, rfl⟩ := hs
  obtain ⟨start', lines', hnew', rfl⟩ := ht
  obtain rfl := Except.ok.inj (hnew.symm.trans hnew')
  rw [fixed_after, fixed_after]

/-- History does not leak. In any two sessions of the same settings, a line whose expression calls
neither `inspect` nor `inspect_int` leads to the same step, and the same is printed up to the
number of the line. -/
theorem submit_ignores_history (settings : Settings) {s t : Shell} (hs : Reachable settings s)
    (ht : Reachable settings t) (line : String)
    (hcalls : ∀ tree, Expr.parse (lineText line) settings.macrosOn = .ok tree →
      "inspect" ∉ tree.called ∧ "inspect_int" ∉ tree.called) :
    ∃ (output : List Printed) (step : Step), ∀ shell ∈ [s, t], ∀ printed : String,
      let after := (shell.respond line).shell
      (submit transcribe shell line).run printed =
        ((after, .ok step),
          printed ++
            String.join (output.map (Printed.textAfter after.counter settings.prompt))) := by
  obtain ⟨declared, -, henv, -⟩ := hs.exists_declared
  have hfixed := hs.fixed_eq ht
  -- The answers agree, and only the prompt holds the number of the line.
  have hanswer : (s.respond line).output = (t.respond line).output ∧
      (s.respond line).step = (t.respond line).step :=
    respond_congr hfixed (by rw [henv]; exact hcalls)
  refine ⟨(s.respond line).output, (s.respond line).step, ?_⟩
  intro shell hshell printed
  have hreachable : Reachable settings shell ∧
      (shell.respond line).output = (s.respond line).output ∧
      (shell.respond line).step = (s.respond line).step := by
    rcases List.mem_pair.mp hshell with rfl | rfl
    · exact ⟨hs, rfl, rfl⟩
    · exact ⟨ht, hanswer.1.symm, hanswer.2.symm⟩
  obtain ⟨hreachable, houtput, hstep⟩ := hreachable
  obtain ⟨-, -, -, -, hprompt⟩ := (hreachable.respond line).exists_declared
  rw [submit_transcribe, join_flatMap_pieces, houtput, hstep, hprompt]

/-- A sum is answered alike in a new session and in one that has lost its first line. -/
theorem submit_ignores_history_sum :
    ∃ start, new { historySize := 1 } = .ok start ∧
      ∃ (output : List Printed) (step : Step),
        ∀ shell ∈ [start, start.after ["'secret'", "2"]], ∀ printed : String,
          let after := (shell.respond "1 + 2").shell
          (submit transcribe shell "1 + 2").run printed =
            ((after, .ok step),
              printed ++ String.join (output.map (Printed.textAfter after.counter "> "))) := by
  obtain ⟨start, hnew, -⟩ := new_refines { historySize := 1 } (by decide)
  have hcalls : (Expr.parse (lineText "1 + 2") true).toOption.all (fun tree =>
      decide ("inspect" ∉ tree.called ∧ "inspect_int" ∉ tree.called)) = true := by decide +kernel
  refine ⟨start, hnew, submit_ignores_history { historySize := 1 } ⟨start, [], hnew, rfl⟩
    ⟨start, ["'secret'", "2"], hnew, rfl⟩ "1 + 2" fun tree htree => ?_⟩
  -- The sum calls neither function.
  rw [htree] at hcalls
  exact of_decide_eq_true hcalls

end Shell

end CelShell
