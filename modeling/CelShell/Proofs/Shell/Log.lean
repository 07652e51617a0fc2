import CelShell.Proofs.History.Log
import CelShell.Shell.Basic

/-!
# Shells refine shells over a log

`LogShell` is a shell that keeps every line and shows the lines that its log shows. A shell
refines it when the two agree on everything but how lines are kept. A line takes shells that
refine each other to such shells, with the same answer (`Refines.respond`), and so do any number
of lines (`Refines.after`). `Shell.respond_refines_log` puts this together for the shells of
settings: which line a number shows, what an answer is, and that an answer depends on no line
outside the window.
-/

namespace CelShell

/-- A shell that keeps every line. -/
structure LogShell where
  /-- How texts are read and what names stand for. -/
  env : Environment
  /-- Whether expressions are checked before they are evaluated. -/
  check : Bool
  /-- The lines so far. -/
  log : Log

namespace LogShell

/-- The value of a line that was read, in the log that has already recorded it. -/
def evaluate (s : LogShell) (c : Compiled) : Except Failure Value := do
  let checked ← if s.check then (s.env.check c).mapError .issues else .ok c
  let program ← (Program.build checked.expr s.log.bindings).mapError .program
  (program.eval []).mapError .evaluation

/-- The shell after a line, what is to be printed, and whether the session goes on. -/
def respond (s : LogShell) (line : String) : LogShell × List Printed × Step :=
  let text := Shell.lineText line
  if Shell.isBlank text then (s, [], .goOn)
  else
    let compiled := s.env.compile text
    let s := { s with log := s.log.record ⟨text, compiled⟩ }
    (s, Shell.report ((compiled.mapError .issues).bind s.evaluate))

/-- The shell after some lines. -/
def after (s : LogShell) (lines : List String) : LogShell :=
  lines.foldl (fun s line => (s.respond line).1) s

/-- The shell of some settings, before any line. -/
def start (settings : Settings) (env : Environment) : LogShell :=
  ⟨env, settings.check, ⟨settings.historySize, settings.formatIndent, []⟩⟩

end LogShell

namespace Shell

/-- The shell after some lines. -/
def after (s : Shell) (lines : List String) : Shell :=
  lines.foldl (fun s line => (s.respond line).shell) s

/-- The texts of the lines that are not blank. -/
def submitted (lines : List String) : List String :=
  (lines.map lineText).filter fun text => !isBlank text

/-- The log of some lines. -/
def logOf (settings : Settings) (env : Environment) (lines : List String) : Log :=
  ⟨settings.historySize, settings.formatIndent,
    (submitted lines).map fun text => ⟨text, env.compile text⟩⟩

/-- The shell agrees with one that keeps every line. -/
structure Refines (s : Shell) (t : LogShell) : Prop where
  /-- Texts are read the same. -/
  env_eq : s.env = t.env
  /-- Both check expressions, or none does. -/
  check_eq : s.check = t.check
  /-- The session has recorded the lines of the log. -/
  keeps : s.session.Keeps t.log

variable {s : Shell} {t : LogShell}

/-! ## One line -/

/-- A line that is not blank is recorded and evaluated. -/
theorem respond_of_not_blank {line : String} (h : isBlank (lineText line) = false) (s : Shell) :
    s.respond line =
      let compiled := s.env.compile (lineText line)
      let s := { s with session := s.session.record ⟨lineText line, compiled⟩ }
      let answer := report ((compiled.mapError .issues).bind s.evaluate)
      ⟨s, answer.1, answer.2⟩ := by
  unfold respond
  simp only [h, Bool.false_eq_true, if_false]

/-- A blank line changes nothing and has no answer. -/
theorem respond_of_blank {line : String} (h : isBlank (lineText line) = true) (s : Shell) :
    s.respond line = ⟨s, [], .goOn⟩ := by
  unfold respond
  simp only [h, if_true]

end Shell

namespace LogShell

/-- A line that is not blank is recorded and evaluated. -/
theorem respond_of_not_blank {line : String} (h : Shell.isBlank (Shell.lineText line) = false)
    (s : LogShell) :
    s.respond line =
      let compiled := s.env.compile (Shell.lineText line)
      let s := { s with log := s.log.record ⟨Shell.lineText line, compiled⟩ }
      (s, Shell.report ((compiled.mapError .issues).bind s.evaluate)) := by
  unfold respond
  simp only [h, Bool.false_eq_true, if_false]

/-- A blank line changes nothing and has no answer. -/
theorem respond_of_blank {line : String} (h : Shell.isBlank (Shell.lineText line) = true)
    (s : LogShell) : s.respond line = (s, [], .goOn) := by
  unfold respond
  simp only [h, if_true]

/-- Only the functions of the log reach an evaluation. -/
theorem evaluate_congr {s t : LogShell} (henv : s.env = t.env) (hcheck : s.check = t.check)
    (hbindings : s.log.bindings = t.log.bindings) : s.evaluate = t.evaluate := by
  funext c
  unfold evaluate
  rw [henv, hcheck, hbindings]

end LogShell

namespace Shell

variable {s : Shell} {t : LogShell}

/-- Lines have the same values. -/
theorem Refines.evaluate_eq (h : s.Refines t) : s.evaluate = t.evaluate := by
  funext c
  unfold evaluate LogShell.evaluate
  rw [h.env_eq, h.check_eq, h.keeps.bindings_eq]

/-- A line keeps the agreement, and both give the same answer. -/
theorem Refines.respond (h : s.Refines t) (line : String) :
    (s.respond line).shell.Refines (t.respond line).1 ∧
      ((s.respond line).output, (s.respond line).step) = (t.respond line).2 := by
  cases hblank : isBlank (lineText line) with
  | true =>
    rw [respond_of_blank hblank, LogShell.respond_of_blank hblank]
    exact ⟨h, rfl⟩
  | false =>
    rw [respond_of_not_blank hblank, LogShell.respond_of_not_blank hblank]
    -- The line is recorded before it is evaluated, so its value is that of the longer log.
    have hrecord : Refines
        { s with session := s.session.record ⟨lineText line, s.env.compile (lineText line)⟩ }
        { t with log := t.log.record ⟨lineText line, t.env.compile (lineText line)⟩ } := by
      refine ⟨h.env_eq, h.check_eq, ?_⟩
      rw [h.env_eq]
      exact h.keeps.record _
    refine ⟨hrecord, ?_⟩
    dsimp only
    rw [hrecord.evaluate_eq, h.env_eq]

end Shell

/-! ## Any number of lines -/

namespace LogShell

/-- The first of some lines comes before the others. -/
theorem after_cons (s : LogShell) (line : String) (rest : List String) :
    s.after (line :: rest) = (s.respond line).1.after rest := by
  unfold after
  rw [List.foldl_cons]

/-- Lines leave the rest of a shell as it is and are recorded unless they are blank. -/
theorem after_eq (s : LogShell) (lines : List String) :
    s.after lines = { s with log := { s.log with
      entries := s.log.entries ++
        (Shell.submitted lines).map fun text => ⟨text, s.env.compile text⟩ } } := by
  induction lines generalizing s with
  | nil =>
    show s = _
    rw [show Shell.submitted [] = [] from rfl, List.map_nil, List.append_nil]
  | cons line rest ih =>
    rw [after_cons, ih]
    -- A blank line is no line that was submitted.
    cases hblank : Shell.isBlank (Shell.lineText line) with
    | true =>
      have hsub : Shell.submitted (line :: rest) = Shell.submitted rest := by
        unfold Shell.submitted
        rw [List.map_cons, List.filter_cons, hblank]
        rfl
      rw [respond_of_blank hblank, hsub]
    | false =>
      have hsub : Shell.submitted (line :: rest) =
          Shell.lineText line :: Shell.submitted rest := by
        unfold Shell.submitted
        rw [List.map_cons, List.filter_cons, hblank]
        rfl
      rw [respond_of_not_blank hblank, hsub, List.map_cons]
      dsimp only [Log.record]
      rw [List.append_assoc, List.singleton_append]

/-- The lines of the shell of some settings. -/
theorem start_after (settings : Settings) (env : Environment) (lines : List String) :
    (start settings env).after lines = ⟨env, settings.check, Shell.logOf settings env lines⟩ := by
  rw [after_eq]
  rfl

end LogShell

namespace Shell

variable {s : Shell} {t : LogShell}

/-- The first of some lines comes before the others. -/
theorem after_cons (s : Shell) (line : String) (rest : List String) :
    s.after (line :: rest) = (s.respond line).shell.after rest := by
  unfold after
  rw [List.foldl_cons]

/-- Lines keep the agreement. -/
theorem Refines.after (h : s.Refines t) (lines : List String) :
    (s.after lines).Refines (t.after lines) := by
  induction lines generalizing s t with
  | nil => exact h
  | cons line rest ih =>
    rw [after_cons, LogShell.after_cons]
    exact ih (h.respond line).1

end Shell

namespace Shell

/-! ## Shells of settings -/

/-- The functions by which an expression reaches its session can be declared beside the standard
ones. -/
theorem declared_introspection :
    ∃ declared, Declarations.standard.declareAll Introspection.declarations = .ok declared := by
  have h : (Declarations.standard.declareAll Introspection.declarations).isOk = true := by
    decide +kernel
  cases hd : Declarations.standard.declareAll Introspection.declarations with
  | error e =>
    rw [hd] at h
    exact absurd h Bool.false_ne_true
  | ok declared => exact ⟨declared, rfl⟩

/-- Settings that keep a line at all have a shell, and it begins with an empty log. -/
theorem new_refines (settings : Settings) (h : 1 ≤ settings.historySize) :
    ∃ s, new settings = .ok s ∧ s.Refines (LogShell.start settings s.env) := by
  obtain ⟨declared, hdeclared⟩ := declared_introspection
  obtain ⟨session, hsession, hkeeps⟩ := Session.new_keeps h settings.formatIndent
  refine ⟨⟨⟨settings.macrosOn, declared⟩, session, settings.check, settings.prompt⟩, ?_,
    ⟨rfl, rfl, hkeeps⟩⟩
  unfold new
  rw [hdeclared, hsession]
  rfl

/-- The texts of lines and one more that is not blank. -/
theorem submitted_concat (lines : List String) {line : String}
    (h : isBlank (lineText line) = false) :
    submitted (lines ++ [line]) = submitted lines ++ [lineText line] := by
  unfold submitted
  rw [List.map_append, List.filter_append, List.map_singleton, List.filter_cons, h,
    List.filter_nil, Bool.not_false, if_pos rfl]

/-- The log of lines and one more that is not blank. -/
theorem logOf_concat (settings : Settings) (env : Environment) (lines : List String)
    {line : String} (h : isBlank (lineText line) = false) :
    logOf settings env (lines ++ [line]) =
      (logOf settings env lines).record ⟨lineText line, env.compile (lineText line)⟩ := by
  unfold logOf Log.record
  rw [submitted_concat lines h, List.map_append]
  rfl

/-- The answer to a line depends on the lines of before only as far as they can be seen. -/
theorem answer_congr (settings : Settings) (env : Environment) {lines others : List String}
    (hlength : (submitted others).length = (submitted lines).length)
    (hdrop : (submitted others).drop ((submitted lines).length + 1 - settings.historySize) =
      (submitted lines).drop ((submitted lines).length + 1 - settings.historySize))
    {line : String} (hline : isBlank (lineText line) = false) :
    (((LogShell.start settings env).after others).respond line).2 =
      (((LogShell.start settings env).after lines).respond line).2 := by
  have hlen : (logOf settings env others).length = (logOf settings env lines).length := by
    show (List.map _ _).length = (List.map _ _).length
    rw [List.length_map, List.length_map, hlength]
  have hlines : (logOf settings env lines).length = (submitted lines).length := by
    show (List.map _ _).length = _
    rw [List.length_map]
  rw [LogShell.start_after, LogShell.start_after, LogShell.respond_of_not_blank hline,
    LogShell.respond_of_not_blank hline]
  -- What can be seen are the entries of the last lines.
  have hdrop' : (logOf settings env others).entries.drop
      ((logOf settings env others).length + 1 - settings.historySize) =
        (logOf settings env lines).entries.drop
          ((logOf settings env others).length + 1 - settings.historySize) := by
    rw [hlen, hlines]
    show (List.map _ _).drop _ = (List.map _ _).drop _
    rw [← List.map_drop, ← List.map_drop, hdrop]
  have hwindow : (logOf settings env others).window = (logOf settings env lines).window := rfl
  -- With the line itself recorded, the logs are seen alike.
  have hview :=
    Log.sameView_record hwindow rfl hlen hdrop' ⟨lineText line, env.compile (lineText line)⟩
  dsimp only
  exact congrArg (fun f => report (Except.bind _ f))
    (LogShell.evaluate_congr rfl rfl hview.bindings_eq)

/-- A shell shows of its lines what a log of all of them shows. During the `N`-th line that is not
blank, the line `n` is shown if it comes before the `N`-th one and at most `historySize` lines began
with it, in the way `Log.inspectAt` says, and no other line has an effect on the answer. -/
theorem respond_refines_log (settings : Settings) (hsize : 1 ≤ settings.historySize) :
    ∃ s, new settings = .ok s ∧ ∀ (lines : List String) (line : String),
      isBlank (lineText line) = false →
      let log := logOf settings s.env (lines ++ [line])
      let response := (s.after lines).respond line
      let call := (Introspection.bindings response.shell.session).call
      response.shell.position = (submitted (lines ++ [line])).length ∧
      (∀ n : Int64,
        call "inspect" [.int n] = .ok (.string (log.inspectAt n.toInt .raw)) ∧
        call "inspect_int" [.int n] = .ok (.string (log.inspectAt n.toInt .raw)) ∧
        ∀ tag : String,
          call "inspect" [.int n, .string tag] =
            .ok (.string (log.inspectAt n.toInt (.ofTag tag))) ∧
          call "inspect_int" [.int n, .string tag] =
            .ok (.string (log.inspectAt n.toInt (.ofTag tag)))) ∧
      call "inspect" [] = .ok (.string (log.inspectAt (log.entries.length - 1) .raw)) ∧
      (∀ tag : String, call "inspect" [.string tag] =
        .ok (.string (log.inspectAt (log.entries.length - 1) (.ofTag tag)))) ∧
      (response.output, response.step) =
        (((LogShell.start settings s.env).after lines).respond line).2 ∧
      ∀ others : List String,
        (submitted others).length = (submitted lines).length →
        (submitted others).drop ((submitted lines).length + 1 - settings.historySize) =
          (submitted lines).drop ((submitted lines).length + 1 - settings.historySize) →
        ((s.after others).respond line).output = response.output ∧
          ((s.after others).respond line).step = response.step := by
  obtain ⟨s, hnew, hstart⟩ := new_refines settings hsize
  refine ⟨s, hnew, ?_⟩
  intro lines line hline
  have hothers := fun others hcount hdrop => Prod.mk.inj <|
    ((hstart.after others).respond line).2.trans <|
      (answer_congr settings s.env hcount hdrop hline).trans
        ((hstart.after lines).respond line).2.symm
  obtain ⟨hafter, hanswer⟩ := (hstart.after lines).respond line
  -- The log that the shell has recorded is the one of the lines.
  have hlog : (((LogShell.start settings s.env).after lines).respond line).1.log =
      logOf settings s.env (lines ++ [line]) := by
    rw [LogShell.start_after, LogShell.respond_of_not_blank hline]
    exact (logOf_concat settings s.env lines hline).symm
  have hkeeps := hafter.keeps
  have hlength : (logOf settings s.env (lines ++ [line])).entries.length =
      (submitted (lines ++ [line])).length := List.length_map ..
  rw [hlog] at hkeeps
  generalize (s.after lines).respond line = response at hothers hanswer hkeeps ⊢
  generalize logOf settings s.env (lines ++ [line]) = log at hkeeps hlength ⊢
  intro log' response' call
  have hinspect : ∀ args, call "inspect" args = log.inspect args := by
    intro args
    rw [← log.call_inspect, ← hkeeps.bindings_eq]
  have hinspectInt : ∀ args, call "inspect_int" args = log.inspectInt args := by
    intro args
    rw [← log.call_inspectInt, ← hkeeps.bindings_eq]
  refine ⟨hkeeps.position_eq.trans hlength, ?_, hinspect _, fun tag => hinspect _, hanswer, hothers⟩
  intro n
  exact ⟨hinspect _, hinspectInt _, fun tag => ⟨hinspect _, hinspectInt _⟩⟩

/-- Two lines are kept. During the third line the second can be shown, but it could not be read; the
first is gone. -/
theorem respond_refines_log_two_lines :
    ∃ s, new { historySize := 2 } = .ok s ∧
      let response := (s.after ["1 + 2", " ", "("]).respond "inspect(2)"
      let call := (Introspection.bindings response.shell.session).call
      response.shell.position = 3 ∧
      call "inspect" [.int 1] = .ok (.string "No history to inspect") ∧
      call "inspect_int" [.int 2, .string "tree"] = .ok (.string "that's not numberwang") := by
  obtain ⟨s, hnew, h⟩ := respond_refines_log { historySize := 2 } (by decide)
  have hlines :
      submitted (["1 + 2", " ", "("] ++ ["inspect(2)"]) = ["1 + 2", "(", "inspect(2)"] := by
    decide +kernel
  obtain ⟨hposition, hcalls, -⟩ := h ["1 + 2", " ", "("] "inspect(2)" (by decide +kernel)
  have hlog : (logOf { historySize := 2 } s.env (["1 + 2", " ", "("] ++ ["inspect(2)"])).entries =
      [⟨"1 + 2", s.env.compile "1 + 2"⟩, ⟨"(", s.env.compile "("⟩,
        ⟨"inspect(2)", s.env.compile "inspect(2)"⟩] := by
    unfold logOf
    rw [hlines]
    rfl
  have hparse : ∀ macrosOn, (Expr.parse "(" macrosOn).isOk = false := by decide +kernel
  -- An open parenthesis alone is no expression.
  have hfailed : (s.env.compile "(").isOk = false := by
    have hp := hparse s.env.macrosOn
    unfold Environment.compile
    cases h : Expr.parse "(" s.env.macrosOn with
    | error e => rfl
    | ok e => rw [h] at hp; exact hp
  have hlength : (logOf { historySize := 2 } s.env
      (["1 + 2", " ", "("] ++ ["inspect(2)"])).entries.length = 3 := by
    rw [hlog]
    rfl
  -- The window holds the third line and the second.
  have hgone : (logOf { historySize := 2 } s.env (["1 + 2", " ", "("] ++ ["inspect(2)"])).inspectAt
      (1 : Int64).toInt .raw = Session.noHistory := by
    apply Log.inspectAt_of_not_window
    rw [hlength]
    show ¬((1 : Int) ≤ 1 ∧ (1 : Int) ≤ 3 - 1 ∧ (3 : Int) - 1 + 1 ≤ 2)
    omega
  -- The second line is in the window, and it has no tree to show.
  have hshown : (logOf { historySize := 2 } s.env (["1 + 2", " ", "("] ++ ["inspect(2)"])).inspectAt
      (2 : Int64).toInt (.ofTag "tree") = Session.failedEntry := by
    rw [Log.inspectAt_of_window (e := ⟨"(", s.env.compile "("⟩)]
    · unfold Log.render
      cases hc : s.env.compile "(" with
      | error e => rfl
      | ok c => rw [hc] at hfailed; cases hfailed
    · rw [hlength]
      show (1 : Int) ≤ 2 ∧ (2 : Int) ≤ 3 - 1 ∧ (3 : Int) - 2 + 1 ≤ 2
      omega
    · rw [hlog]
      rfl
  refine ⟨s, hnew, ?_, ?_, ?_⟩
  · rw [hposition, hlines]
    rfl
  · refine (hcalls 1).1.trans ?_
    rw [hgone]
    rfl
  · refine ((hcalls 2).2.2 "tree").2.trans ?_
    rw [hshown]
    rfl

end Shell

end CelShell
