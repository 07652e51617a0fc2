import CelShell.Proofs.Eval.Dispatch
import CelShell.Proofs.History.Introspection
import CelShell.Proofs.Shell.Library
import CelShell.Proofs.Shell.Outcome
import CelShell.Proofs.Typing.Declared

/-!
# Checked expressions build

The functions that expressions can call are listed three times: as declarations, as names of
built-in functions, and as the functions that a session binds. What the first list knows one of the
others implements (`Declarations.isName_of_knows`, `Introspection.implements_of_knows`), and the
checker, the builder and the evaluator go over the same calls. So an expression that passes the
check has a program, neither the library nor a shell that checks its lines misses a function, and no
evaluation of a program comes to a function that there is not: `Shell.checked_builds`.
-/

namespace CelShell

/-- An expression that passes the check has a program in a host that implements what is known. -/
theorem Program.build_of_check {d : Declarations} {b : Bindings} {e : Tree} {ty : Ty}
    (hknown : ∀ f, d.Knows f → b.implements f = true) (h : e.check d = .ok ty) :
    Program.build e b = .ok ⟨e, b⟩ :=
  Program.build_eq_ok_iff.mpr ⟨rfl, fun f hf => hknown f (Expr.knows_of_check h f hf)⟩

namespace Bindings

/-- Built-in functions need no host. -/
theorem implements_of_isName (b : Bindings) {function : String}
    (h : Builtin.isName function = true) : b.implements function = true := by
  unfold implements
  rw [h, Bool.or_true]

end Bindings

namespace Introspection

variable {declared : Declarations} {function : String}

/-- A session implements the functions by which expressions reach it, and those that are built
in. -/
theorem implements_of_knows
    (hdeclared : Declarations.standard.declareAll declarations = .ok declared)
    {variableTypes : Table String Ty} (session : Session)
    (h : Declarations.Knows ⟨declared.functions, variableTypes⟩ function) :
    (bindings session).implements function = true := by
  by_cases hname : function ∈ names
  · simp only [names, List.mem_cons, List.not_mem_nil, or_false] at hname
    unfold Bindings.implements Table.contains
    rw [get?_bindings_eq]
    rcases hname with rfl | rfl | rfl <;> rfl
  · -- Any other function is known by the standard declarations already.
    have hsame : declared.function? function = Declarations.standard.function? function :=
      Declarations.function?_declareAll hdeclared fun d hd heq =>
        hname (heq ▸ name_mem_names hd)
    have hstandard : Declarations.Knows ⟨Declarations.standardFunctions, variableTypes⟩ function :=
      h.imp_left fun hsome => hsame ▸ hsome
    exact (bindings session).implements_of_isName (Declarations.isName_of_knows hstandard)

end Introspection

namespace Environment

variable {env : Environment} {b : Bindings}

/-- A function that is missing is not what keeps a checked expression from having a value. -/
theorem valueOf_ne_program (hknown : ∀ f, env.declared.Knows f → b.implements f = true)
    (c : Compiled) (error : ProgramError) : env.valueOf true b c ≠ .error (.program error) := by
  cases hcheck : env.check c with
  | error issues =>
    rw [valueOf_refused hcheck]
    exact nofun
  | ok checked =>
    obtain ⟨ty, hty, -⟩ := check_eq_ok hcheck
    rw [valueOf_checked hcheck, valueIn, Program.build_of_check hknown hty]
    show (c.expr.eval b [] []).mapError Failure.evaluation ≠ _
    cases c.expr.eval b [] [] <;> exact nofun

end Environment

/-- The library misses no function. -/
theorem evalText_ne_program (text : String) (error : ProgramError) :
    evalText text ≠ .error (.program error) := by
  rw [evalText_eq]
  cases (Environment.standard true).compile text with
  | error issues => exact nofun
  | ok c =>
    exact Environment.valueOf_ne_program
      (fun _ h => Bindings.implements_of_isName [] (Declarations.isName_of_knows h)) c error

namespace Shell

variable {settings : Settings} {s : Shell}

/-- A shell that checks its lines misses no function. -/
theorem Reachable.outcome_ne_program (h : Reachable settings s) (hcheck : settings.check = true)
    (line : String) (error : ProgramError) : s.outcome line ≠ .error (.program error) := by
  obtain ⟨declared, hdeclared, henv, hchecks, -⟩ := h.exists_declared
  cases hcompile : s.env.compile (lineText line) with
  | error issues =>
    rw [outcome_of_compile_error hcompile]
    exact nofun
  | ok c =>
    rw [outcome_of_compile hcompile, hchecks, hcheck]
    refine Environment.valueOf_ne_program (fun f hf => ?_) c error
    rw [henv] at hf
    exact Introspection.implements_of_knows hdeclared _ hf

/-- Checked expressions build. An expression that passes the check with the standard declarations is
a program without functions of a host, and one that passes with those of a session besides is a
program with the functions of any session, whatever the variables are. So neither the library nor a
shell that checks its lines reports a missing function. And whatever functions a program is built
with, and whatever they remember, each call that its evaluation does not give to the host is of a
built-in function that there is. -/
theorem checked_builds :
    (∀ (variableTypes : Table String Ty) (e : Tree) (ty : Ty),
      e.check ⟨Declarations.standardFunctions, variableTypes⟩ = .ok ty →
        Program.build e [] = .ok ⟨e, []⟩) ∧
    (∃ declared, Declarations.standard.declareAll Introspection.declarations = .ok declared ∧
      ∀ (variableTypes : Table String Ty) (session : Session) (e : Tree) (ty : Ty),
        e.check ⟨declared.functions, variableTypes⟩ = .ok ty →
          Program.build e (Introspection.bindings session) =
            .ok ⟨e, Introspection.bindings session⟩) ∧
    (∀ (text : String) (error : ProgramError), evalText text ≠ .error (.program error)) ∧
    (∀ (settings : Settings) (s : Shell), settings.check = true → Reachable settings s →
      ∀ line : String,
        (∀ error : ProgramError, s.outcome line ≠ .error (.program error)) ∧
        (isBlank (lineText line) = false →
          (s.respond line).output = (report (s.outcome line)).1)) ∧
    ∀ (e : Tree) (b : Bindings) (p : Program), Program.build e b = .ok p →
      (∀ host : Host, (∀ f, Table.contains host f = Table.contains b f) →
        ∀ (values : Table String Value), ∀ c ∈ (p.expr.trace host values).2, c.byHost = false →
          Builtin.isName c.function = true ∧ c.result = Builtin.call c.function c.args) ∧
      (∀ f, Table.contains b.host f = Table.contains b f) ∧
      ∀ values : Table String Value, (p.expr.trace b.host values).1 = p.eval values := by
  -- The check admits declared functions only, and for each of those there is one.
  obtain ⟨declared, hdeclared⟩ := declared_introspection
  refine ⟨?_, ⟨declared, hdeclared, ?_⟩, evalText_ne_program, ?_, ?_⟩
  · intro variableTypes e ty hcheck
    exact Program.build_of_check
      (fun _ h => Bindings.implements_of_isName [] (Declarations.isName_of_knows h)) hcheck
  · intro variableTypes session e ty hcheck
    exact Program.build_of_check
      (fun _ h => Introspection.implements_of_knows hdeclared session h) hcheck
  · intro settings s hcheck hs line
    refine ⟨hs.outcome_ne_program hcheck line, fun hblank => ?_⟩
    rw [respond_eq hblank]
  · intro e b p hbuild
    refine ⟨fun host hnames values c hc => Program.isName_of_dispatched hbuild hnames values hc,
      b.contains_host, fun values => ?_⟩
    obtain ⟨rfl, -⟩ := Program.build_eq_ok_iff.mp hbuild
    exact e.trace_result b values

/-- A loop whose body asks for the history of a session, over a list that is a part of a call, is a
program of every session; so is, without a session, a sum in a map that is indexed, whose calls are
all of built-in functions. And a session that checks its lines does not miss a function. -/
theorem checked_builds_nested :
    let m : Mark := default
    let shown : Tree := .call m "size" [.comprehension m .map "x" (.list m [.ident m "n"])
      (.call m "inspect" [.ident m "x", .literal m (.string "tree")])]
    let sum : Tree := .call m "_[_]" [.map m [(.ident m "n",
      .call m "_+_" [.ident m "n", .literal m (.int 1)])], .ident m "n"]
    ∃ start, new {} = .ok start ∧
      Program.build shown (Introspection.bindings start.session) =
        .ok ⟨shown, Introspection.bindings start.session⟩ ∧
      Program.build sum [] = .ok ⟨sum, []⟩ ∧
      (sum.trace [] [("n", .int 7)]).2.map Call.function = ["_+_", "_[_]"] ∧
      (∀ c ∈ (sum.trace [] [("n", .int 7)]).2, Builtin.isName c.function = true) ∧
      ∀ error, start.outcome "size(inspect())" ≠ .error (.program error) := by
  intro m shown sum
  obtain ⟨start, hnew, -⟩ := new_refines {} (by decide)
  obtain ⟨hstandard, ⟨declared, hdeclared, hsession⟩, -, hshell, hprogram⟩ := checked_builds
  have hshown : (Declarations.standard.declareAll Introspection.declarations).toOption.all (fun d =>
      decide (shown.check ⟨d.functions, [("n", .int)]⟩ = .ok .int)) = true := by decide +kernel
  rw [hdeclared] at hshown
  have hsum : sum.check ⟨Declarations.standardFunctions, [("n", .int)]⟩ = .ok .int := by
    decide +kernel
  have hbuild := hstandard _ _ _ hsum
  refine ⟨start, hnew, hsession _ start.session _ _ (of_decide_eq_true hshown), hbuild, rfl, ?_,
    (hshell {} start rfl ⟨start, [], hnew, rfl⟩ "size(inspect())").1⟩
  intro c hc
  refine ((hprogram sum [] _ hbuild).1 [] (fun _ => rfl) _ c hc ?_).1
  -- A call goes to the host only if the host has its name, and there is none.
  obtain ⟨before, hanswer⟩ := (sum.ends_trace [] _).1 c hc
  rw [hanswer, Host.byHost_answer]
  rfl

end Shell

end CelShell
