import CelShell.Proofs.Eval.Trace
import CelShell.Proofs.Eval.Valuation
import CelShell.Proofs.History.Introspection
import CelShell.Proofs.Shell.Transcript

/-!
# The shell and the library give the same values

`evalText` gives the value of a text in the standard environment, and a shell gives the value of a
line in an environment with three more functions. A text that calls none of the three has the same
value in both, or has none for the same reason (`Shell.Reachable.respond_eq_evalText`), and the
shell prints it: `Shell.submit_agrees_with_evalText`.
-/

namespace CelShell

/-- The value of a text is that of the expression which is read from it. -/
theorem evalText_eq (text : String) :
    evalText text = (((Environment.standard true).compile text).mapError .issues).bind
      ((Environment.standard true).valueOf true []) := rfl

/-- No text asks the library to end a session. -/
theorem evalText_ne_quit (text : String) : evalText text ≠ .error (.evaluation .quit) := by
  rw [evalText_eq]
  cases (Environment.standard true).compile text with
  | error issues => exact nofun
  | ok c =>
    intro hquit
    have hvalue : (Environment.standard true).valueOf true [] c = .error (.evaluation .quit) :=
      hquit
    obtain ⟨p, hp, heval⟩ := Environment.valueOf_eq_evaluation_iff.mp hvalue
    have hstays := p.expr.stays_eval []
    rw [← Environment.bindings_program? hp] at hstays
    exact hstays heval

namespace Shell

variable {settings : Settings} {s : Shell}

/-- An expression that calls none of the functions of the session has the value that the library
gives it. -/
theorem Reachable.evaluate_eq_valueOf (h : Reachable settings s) {c : Compiled}
    (hcalls : ∀ f ∈ Introspection.names, f ∉ c.expr.called) :
    s.evaluate c = (Environment.standard settings.macrosOn).valueOf settings.check [] c := by
  obtain ⟨declared, hdeclared, henv, hcheck, -⟩ := h.exists_declared
  have hother : ∀ f ∈ c.expr.called, f ∉ Introspection.names := fun f hf hname => hcalls f hname hf
  have hvariables : declared.variableTypes = Declarations.standard.variableTypes :=
    Declarations.variableTypes_declareAll hdeclared
  -- The declarations of the session add functions under their own names and leave the others.
  have hfunctions : ∀ f ∈ c.expr.called,
      declared.function? f = Declarations.standard.function? f := by
    intro f hf
    refine Declarations.function?_declareAll hdeclared fun d hd hname => ?_
    exact hother f hf (hname ▸ Introspection.name_mem_names hd)
  show s.env.valueOf s.check (Introspection.bindings s.session) c = _
  rw [henv, hcheck]
  exact Environment.valueOf_congr settings.check hvariables hfunctions fun f hf =>
    Introspection.get?_bindings_eq_none s.session (hother f hf)

/-- A line that does not end in an end of line is its own text. -/
theorem lineText_eq_self {line : String}
    (h : ∀ c, line.toList.getLast? = some c → c ≠ '\n' ∧ c ≠ '\r') : lineText line = line := by
  have hkept : line.toList.reverse.dropWhile (fun c => c == '\n' || c == '\r') =
      line.toList.reverse := by
    cases hrev : line.toList.reverse with
    | nil => rfl
    | cons c rest =>
      obtain ⟨hfeed, hreturn⟩ := h c (by rw [← List.head?_reverse, hrev, List.head?_cons])
      rw [List.dropWhile_cons_of_neg]
      simp [hfeed, hreturn]
  unfold lineText
  dsimp only
  rw [hkept, List.reverse_reverse, String.ofList_toList]

/-- A line of a session has the value of its text, unless its expression calls one of the functions
of the session. -/
theorem Reachable.respond_eq_evalText (h : Reachable settings s) (hcheck : settings.check = true)
    (hmacros : settings.macrosOn = true) {line : String} (hblank : isBlank (lineText line) = false)
    (hcalls : ∀ tree, Expr.parse (lineText line) true = .ok tree →
      ∀ f ∈ Introspection.names, f ∉ tree.called) :
    (s.respond line).output = (report (evalText (lineText line))).1 ∧
      (s.respond line).step = (report (evalText (lineText line))).2 := by
  obtain ⟨declared, -, henv, -, -⟩ := h.exists_declared
  have hcompile : s.env.compile (lineText line) =
      (Environment.standard true).compile (lineText line) := by
    rw [henv, hmacros]
    rfl
  have hafter := h.respond line
  rw [respond_of_not_blank hblank] at hafter ⊢
  rw [evalText_eq, ← hcompile]
  cases hcompiled : s.env.compile (lineText line) with
  | error issues => exact ⟨rfl, rfl⟩
  | ok c =>
    have hparse : Expr.parse (lineText line) true = .ok c.expr := by
      rw [hcompile] at hcompiled
      exact (Environment.compile_eq_ok hcompiled).1
    -- The line is recorded when its expression is evaluated, which makes no difference here.
    rw [hcompiled] at hafter
    have hvalue := hafter.evaluate_eq_valueOf (hcalls c.expr hparse)
    rw [hcheck, hmacros] at hvalue
    exact ⟨congrArg (fun r => (report r).1) hvalue, congrArg (fun r => (report r).2) hvalue⟩

/-- The library and the shell agree. In any session that checks expressions and expands macros, a
line that is not blank, does not end in an end of line, and calls none of `quit`, `inspect` and
`inspect_int` is answered with what the library says of its text: the value, the issues one after
the other, or the error, after the prompt for the next line. The session goes on. -/
theorem submit_agrees_with_evalText (settings : Settings) (hcheck : settings.check = true)
    (hmacros : settings.macrosOn = true) {s : Shell} (hs : Reachable settings s) (line : String)
    (hblank : isBlank line = false)
    (hend : ∀ c, line.toList.getLast? = some c → c ≠ '\n' ∧ c ≠ '\r')
    (hcalls : ∀ tree, Expr.parse line true = .ok tree →
      "quit" ∉ tree.called ∧ "inspect" ∉ tree.called ∧ "inspect_int" ∉ tree.called) :
    let after := (s.respond line).shell
    after.position = s.position + 1 ∧ ∀ printed : String, ∃ text : String,
      (submit transcribe s line).run printed = ((after, .ok .goOn), printed ++ text) ∧
      (∀ v, evalText line = .ok v → text = after.prompt ++ display v ++ "\n") ∧
      (∀ is, evalText line = .error (.issues is) →
        text = String.join (is.rendered.map fun issue =>
          after.prompt ++ String.ofList (Unicode.trim issue.toList) ++ "\n")) ∧
      (∀ e, evalText line = .error (.program e) → text = after.prompt ++ e.text ++ "\n") ∧
      (∀ e, evalText line = .error (.evaluation e) → text = after.prompt ++ e.text ++ "\n") := by
  have hline := lineText_eq_self hend
  rw [← hline] at hblank
  -- The names are those of the three functions of the session.
  have hnames : ∀ tree, Expr.parse (lineText line) true = .ok tree →
      ∀ f ∈ Introspection.names, f ∉ tree.called := by
    intro tree htree f hf
    obtain ⟨hquit, hinspect, hinspectInt⟩ := hcalls tree (hline ▸ htree)
    simp only [Introspection.names, List.mem_cons, List.not_mem_nil, or_false] at hf
    rcases hf with rfl | rfl | rfl
    · exact hquit
    · exact hinspect
    · exact hinspectInt
  obtain ⟨houtput, hstep⟩ := hs.respond_eq_evalText hcheck hmacros hblank hnames
  rw [hline] at houtput hstep
  rw [step_report (evalText_ne_quit line)] at hstep
  dsimp only
  refine ⟨?_, fun printed => ⟨_, by rw [submit_transcribe, join_flatMap_pieces, hstep], ?_⟩⟩
  · rw [respond_of_not_blank hblank]
    rfl
  -- One text is printed after the prompt, with a line feed behind it.
  have hone : ∀ text, String.join ([Printed.record text].map
      (Printed.textAfter (s.respond line).shell.counter (s.respond line).shell.promptText)) =
        (s.respond line).shell.prompt ++ text ++ "\n" := by
    intro text
    rw [List.map_singleton, String.join_cons, String.join_nil, String.append_empty]
    rfl
  rw [houtput]
  refine ⟨?_, ?_, ?_, ?_⟩
  · intro v hvalue
    rw [hvalue]
    exact hone (display v)
  · intro is hissues
    rw [hissues]
    show String.join ((is.rendered.map _).map _) = _
    rw [List.map_map]
    rfl
  · intro e herror
    rw [herror]
    exact hone e.text
  · intro e herror
    -- The library never asks to end a session, so the error is reported.
    have hquit : e ≠ .quit := fun he => evalText_ne_quit line (he ▸ herror)
    rw [herror, report_evaluation hquit]
    exact hone e.text

/-- The first line of a session is a sum of texts, and it is printed without quotes. -/
theorem submit_agrees_with_evalText_concatenation :
    ∃ start, new {} = .ok start ∧ ∀ printed : String,
      (submit transcribe start "'a' + 'b'").run printed =
        (((start.respond "'a' + 'b'").shell, .ok .goOn),
          printed ++ ((start.respond "'a' + 'b'").shell.prompt ++ "ab" ++ "\n")) := by
  obtain ⟨start, hnew, -⟩ := new_refines {} (by decide)
  have hblank : isBlank "'a' + 'b'" = false := by decide +kernel
  have hend : ∀ c, ("'a' + 'b'" : String).toList.getLast? = some c → c ≠ '\n' ∧ c ≠ '\r' := by
    rintro c hc
    obtain rfl : '\'' = c := Option.some.inj hc
    decide
  have hcalls : (Expr.parse "'a' + 'b'" true).toOption.all (fun tree => decide
      ("quit" ∉ tree.called ∧ "inspect" ∉ tree.called ∧ "inspect_int" ∉ tree.called)) = true := by
    decide +kernel
  -- The value is known by what is shown of it.
  have hvalue : ∃ v, evalText "'a' + 'b'" = .ok v ∧ display v = "ab" := by
    have hdisplayed : (evalText "'a' + 'b'").toOption.map display = some "ab" := by decide +kernel
    cases hvalue : evalText "'a' + 'b'" with
    | error failure =>
      rw [hvalue] at hdisplayed
      cases hdisplayed
    | ok v =>
      rw [hvalue] at hdisplayed
      exact ⟨v, rfl, Option.some.inj hdisplayed⟩
  obtain ⟨v, hvalue, hdisplay⟩ := hvalue
  have hreachable : Reachable {} start := ⟨start, [], hnew, rfl⟩
  refine ⟨start, hnew, fun printed => ?_⟩
  obtain ⟨text, hrun, htext, -⟩ := (submit_agrees_with_evalText {} rfl rfl hreachable
    "'a' + 'b'" hblank hend fun tree htree => by
      rw [htree] at hcalls
      exact of_decide_eq_true hcalls).2 printed
  rw [hrun, htext v hvalue, hdisplay]

end Shell

end CelShell
