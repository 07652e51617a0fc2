import CelShell.Proofs.Eval.Parametric

/-!
# The calls of an evaluation

A `Host` is functions that may remember the calls before, and an evaluation with such a host keeps
the calls that it makes, in order. `Ends` relates calls to a result: if a call asks to end the
session, then it is the last one and the result asks so too, and otherwise the result does not. One
call ends so, and every step of an evaluation keeps it, because the steps that look at how a part
ended pass the demand on (`Host.tracing`); so every evaluation ends so (`Expr.ends_trace`). The host
of bindings, which remember nothing, gives the results that the bindings give (`Expr.trace_result`).
-/

namespace CelShell

/-- A call of a function, and what came of it. -/
structure Call where
  /-- The name of the function. -/
  function : String
  /-- The arguments, the target first if there is one. -/
  args : List Value
  /-- Whether the host has bound the name. -/
  byHost : Bool
  /-- What the function made of the arguments. -/
  result : Except EvalError Value

/-- The host asks to end the session. -/
def Call.Quits (c : Call) : Prop := c.byHost = true ∧ c.result = .error .quit

/-- The functions of a host that may remember: what a function does can depend on the calls
before. -/
abbrev Host := Table String (List Call → Handler)

namespace Host

/-- What comes of a call after others. -/
def answer (host : Host) (before : List Call) (function : String) (args : List Value) : Call :=
  match Table.get? host function with
  | some handler => ⟨function, args, true, handler before args⟩
  | none => ⟨function, args, false, Builtin.call function args⟩

/-- What expressions need, from a host and the values of variables. The calls are kept. -/
def interface (host : Host) (values : Table String Value) : Interface (StateM (List Call)) :=
  ⟨values, fun function args => ExceptT.mk fun before =>
    ((host.answer before function args).result, before ++ [host.answer before function args])⟩

end Host

/-- Functions that remember nothing. -/
def Bindings.host (b : Bindings) : Host := b.map fun (name, handler) => (name, fun _ => handler)

/-- How an evaluation with a state ends, and the state that it leaves. -/
def Evaluation.runFrom (e : Evaluation (StateM σ) α) (s : σ) : Except EvalError α × σ :=
  Id.run (e.run.run s)

/-- How the evaluation of an expression ends, and the calls that it makes. -/
def Expr.trace (host : Host) (values : Table String Value) (e : Expr α) :
    Except EvalError Value × List Call :=
  (e.evaluate (host.interface values) []).runFrom []

/-! ## Evaluations with a state -/

namespace Evaluation

variable {σ α β : Type} {x : Evaluation (StateM σ) α} {f : α → Evaluation (StateM σ) β} {s s' : σ}

/-- A value is passed on, with the state that is left. -/
theorem runFrom_bind_ok {a : α} (h : x.runFrom s = (.ok a, s')) :
    (x >>= f).runFrom s = (f a).runFrom s' := by
  have hrun : x.run.run s = (.ok a, s') := h
  unfold runFrom
  rw [ExceptT.run_bind, StateT.run_bind, hrun]
  rfl

/-- After an error nothing happens. -/
theorem runFrom_bind_error {e : EvalError} (h : x.runFrom s = (.error e, s')) :
    (x >>= f).runFrom s = (.error e, s') := by
  have hrun : x.run.run s = (.error e, s') := h
  unfold runFrom
  rw [ExceptT.run_bind, StateT.run_bind, hrun]
  rfl

/-- The end of an evaluation is passed on whatever it is. -/
theorem runFrom_outcome_bind {g : Except EvalError α → Evaluation (StateM σ) β}
    (h : x.runFrom s = (r, s')) : (outcome x >>= g).runFrom s = (g r).runFrom s' := by
  apply runFrom_bind_ok
  show (Except.ok (x.runFrom s).1, (x.runFrom s).2) = _
  rw [h]

end Evaluation

/-! ## How calls and results go together -/

/-- No call asks to end the session and the result does not either, or the last call alone asks and
so does the result. -/
inductive Ends : List Call → Except EvalError α → Prop
  /-- The session goes on. -/
  | stays {calls : List Call} {r : Except EvalError α} (hcalls : ∀ c ∈ calls, ¬c.Quits)
    (hr : Stays r) : Ends calls r
  /-- The last call ends the session. -/
  | quits {calls : List Call} {c : Call} (hcalls : ∀ c ∈ calls, ¬c.Quits) (hc : c.Quits) :
    Ends (calls ++ [c]) (.error .quit)

namespace Ends

variable {α β : Type} {calls more : List Call} {r : Except EvalError α}

/-- Calls that do not ask to end the session can come before. -/
theorem append (hcalls : ∀ c ∈ calls, ¬c.Quits) (h : Ends more r) : Ends (calls ++ more) r := by
  cases h with
  | stays hmore hr => exact .stays (List.forall_mem_append.mpr ⟨hcalls, hmore⟩) hr
  | quits hmore hc =>
    rw [← List.append_assoc]
    exact .quits (List.forall_mem_append.mpr ⟨hcalls, hmore⟩) hc

/-- An end that is not the demand to end the session comes of calls that are not. -/
theorem forall_not_quits (h : Ends calls r) (hr : Stays r) : ∀ c ∈ calls, ¬c.Quits := by
  cases h with
  | stays hcalls => exact hcalls
  | quits => exact absurd rfl hr

/-- An error is one of any type. -/
theorem error {e : EvalError} (h : Ends calls (.error e : Except EvalError α)) :
    Ends calls (.error e : Except EvalError β) := by
  cases h with
  | stays hcalls hr =>
    exact .stays hcalls fun he => hr (congrArg Except.error (Except.error.inj he))
  | quits hcalls hc => exact .quits hcalls hc

/-- A call that asks to end the session is the last one, and the result asks so too. -/
theorem eq_nil_of_quits {before after : List Call} {c : Call} (h : Ends calls r)
    (hcalls : calls = before ++ c :: after) (hc : c.Quits) : after = [] ∧ r = .error .quit := by
  cases h with
  | stays hstays => exact absurd hc (hstays c (hcalls ▸ by simp))
  | @quits others last hothers hlast =>
    refine ⟨?_, rfl⟩
    rcases List.eq_nil_or_concat after with rfl | ⟨init, d, rfl⟩
    · rfl
    · -- Otherwise the call would be among those that do not ask.
      rw [List.concat_eq_append, ← List.cons_append, ← List.append_assoc] at hcalls
      obtain ⟨rfl, -⟩ := List.append_inj' hcalls rfl
      exact absurd hc (hothers c (by simp))

/-- The result asks to end the session if and only if a call does. -/
theorem eq_quit_iff (h : Ends calls r) : r = .error .quit ↔ ∃ c ∈ calls, c.Quits := by
  cases h with
  | stays hcalls hr =>
    exact ⟨fun he => absurd he hr, fun ⟨c, hmem, hc⟩ => absurd hc (hcalls c hmem)⟩
  | @quits others last _ hlast =>
    exact ⟨fun _ => ⟨last, List.mem_append_right _ List.mem_cons_self, hlast⟩, fun _ => rfl⟩

end Ends

/-! ## Every evaluation -/

namespace Host

variable (host : Host)

/-- The calls are answers of the host. -/
def Answers (calls : List Call) : Prop :=
  ∀ c ∈ calls, ∃ before, c = host.answer before c.function c.args

/-- The evaluation makes calls after those before, which go together with its result. -/
def Traced (x : Evaluation (StateM (List Call)) α) : Prop :=
  ∀ before, ∃ r calls, x.runFrom before = (r, before ++ calls) ∧ host.Answers calls ∧ Ends calls r

/-- An answer carries the name of its function. -/
theorem answer_function (before : List Call) (function : String) (args : List Value) :
    (host.answer before function args).function = function := by
  unfold answer
  split <;> rfl

/-- An answer carries its arguments. -/
theorem answer_args (before : List Call) (function : String) (args : List Value) :
    (host.answer before function args).args = args := by
  unfold answer
  split <;> rfl

/-- One call is an answer of the host. -/
theorem answers_answer (before : List Call) (function : String) (args : List Value) :
    host.Answers [host.answer before function args] := by
  intro c hc
  obtain rfl := List.mem_singleton.mp hc
  exact ⟨before, by rw [answer_function, answer_args]⟩

/-- A call asks to end the session if its result does: that of a built-in function never does. -/
theorem quits_answer_iff (before : List Call) (function : String) (args : List Value) :
    (host.answer before function args).Quits ↔
      (host.answer before function args).result = .error .quit := by
  unfold answer
  cases Table.get? host function with
  | some handler => exact ⟨And.right, fun h => ⟨rfl, h⟩⟩
  | none => exact ⟨And.right, fun h => absurd h (Builtin.stays_call function args)⟩

/-- One call goes together with its result. -/
theorem ends_answer (before : List Call) (function : String) (args : List Value) :
    Ends [host.answer before function args] (host.answer before function args).result := by
  by_cases hquit : (host.answer before function args).result = .error .quit
  · rw [hquit, ← List.nil_append [_]]
    exact .quits nofun ((host.quits_answer_iff before function args).mpr hquit)
  · refine .stays (fun c hc => ?_) hquit
    obtain rfl := List.mem_singleton.mp hc
    exact fun hquits => hquit hquits.2

/-- An evaluation that ends at once makes no calls. -/
theorem traced_ended {r : Except EvalError α} (h : Stays r) :
    host.Traced (Evaluation.ended r) := fun before =>
  ⟨r, [], by rw [List.append_nil]; rfl, nofun, .stays nofun h⟩

variable {α β : Type} {host} {x : Evaluation (StateM (List Call)) α}

/-- What comes after an end that is not the demand to end the session. -/
theorem Traced.append {before calls : List Call} (hanswers : host.Answers calls)
    (hcalls : ∀ c ∈ calls, ¬c.Quits) {y : Evaluation (StateM (List Call)) α} (hy : host.Traced y) :
    ∃ r all, y.runFrom (before ++ calls) = (r, before ++ all) ∧ host.Answers all ∧ Ends all r := by
  obtain ⟨r, more, hrun, hmore, hends⟩ := hy (before ++ calls)
  refine ⟨r, calls ++ more, ?_, List.forall_mem_append.mpr ⟨hanswers, hmore⟩,
    hends.append hcalls⟩
  rw [hrun, List.append_assoc]

/-- One evaluation after the other. -/
theorem Traced.bind {f : α → Evaluation (StateM (List Call)) β} (hx : host.Traced x)
    (hf : ∀ a, host.Traced (f a)) : host.Traced (x >>= f) := by
  intro before
  obtain ⟨r, calls, hrun, hanswers, hends⟩ := hx before
  cases r with
  | ok a =>
    -- The first part goes on with a value, so none of its calls asks to end the session.
    rw [Evaluation.runFrom_bind_ok hrun]
    exact (hf a).append hanswers (hends.forall_not_quits (.ok a))
  | error e => exact ⟨.error e, calls, Evaluation.runFrom_bind_error hrun, hanswers, hends.error⟩

/-- An evaluation after the end of another. -/
theorem Traced.outcome {f : Except EvalError α → Evaluation (StateM (List Call)) β}
    (hx : host.Traced x) (hf : ∀ r, Stays r → host.Traced (f r))
    (hquit : f (.error .quit) = Evaluation.ended (.error .quit)) :
    host.Traced (Evaluation.outcome x >>= f) := by
  intro before
  obtain ⟨r, calls, hrun, hanswers, hends⟩ := hx before
  rw [Evaluation.runFrom_outcome_bind hrun]
  by_cases hr : r = .error .quit
  · -- The step passes the demand on without another call, so the last call stays the last.
    subst hr
    rw [hquit]
    exact ⟨.error .quit, calls, rfl, hanswers, hends.error⟩
  · exact (hf r hr).append hanswers (hends.forall_not_quits hr)

/-- That calls go together with the result is kept by every step of an evaluation. -/
def tracing (host : Host) : Evaluation.Relation (StateM (List Call)) (StateM (List Call)) where
  Rel x _ := host.Traced x
  ended h := host.traced_ended h
  bind := Traced.bind
  outcome hx hf hquit _ := hx.outcome hf hquit

end Host

namespace Expr

variable {α : Type}

/-- The calls of an expression are answers of the host and go together with the result. -/
theorem ends_trace (host : Host) (values : Table String Value) (e : Expr α) :
    host.Answers (e.trace host values).2 ∧
      Ends (e.trace host values).2 (e.trace host values).1 := by
  have hcall : ∀ f args, host.Traced ((host.interface values).call f args) :=
    fun f args before =>
      ⟨_, [host.answer before f args], rfl, host.answers_answer before f args,
        host.ends_answer before f args⟩
  obtain ⟨r, calls, hrun, hanswers, hends⟩ :=
    e.related_evaluate host.tracing (j := host.interface values) rfl (fun f _ => hcall f) [] []
  rw [List.nil_append] at hrun
  unfold trace
  rw [hrun]
  exact ⟨hanswers, hends⟩

end Expr

/-! ## Functions that remember nothing -/

namespace Bindings

/-- The state has no effect on how an evaluation ends. -/
def forgetting : Evaluation.Relation (StateM (List Call)) Id where
  Rel x y := ∀ s, (x.runFrom s).1 = y.run
  ended _ _ := rfl
  bind {α β x y f g} h hf s := by
    cases hx : x.runFrom s with
    | mk r s' =>
      have hy : y.run = r := by rw [← h s, hx]
      cases r with
      | ok a =>
        rw [Evaluation.runFrom_bind_ok hx, hf a, ExceptT.run_bind, hy]
        rfl
      | error e =>
        rw [Evaluation.runFrom_bind_error hx, ExceptT.run_bind, hy]
        rfl
  outcome {α β x y f g} h hf hquit hquit' s := by
    cases hx : x.runFrom s with
    | mk r s' =>
      have hy : y.run = r := by rw [← h s, hx]
      rw [Evaluation.runFrom_outcome_bind hx, show (Evaluation.outcome y >>= g).run =
        (g y.run).run from rfl, hy]
      by_cases hr : r = .error .quit
      · rw [hr, hquit, hquit']
        rfl
      · exact hf r hr s'

/-- Functions that remember nothing have the names of the bindings. -/
theorem get?_host (b : Bindings) (function : String) :
    Table.get? b.host function = (Table.get? b function).map fun h _ => h := by
  induction b with
  | nil => rfl
  | cons p rest ih =>
    obtain ⟨name, handler⟩ := p
    show (if name = function then _ else Table.get? (host rest) function) =
      (if name = function then _ else Table.get? rest function).map _
    split
    · rfl
    · exact ih

/-- A function that remembers nothing answers the same whatever was called before. -/
theorem answer_host (b : Bindings) (before : List Call) (function : String) (args : List Value) :
    (b.host.answer before function args).result = b.call function args := by
  unfold Host.answer call
  rw [get?_host]
  cases Table.get? b function <;> rfl

end Bindings

/-- To keep the calls does not change the result. -/
theorem Expr.trace_result (b : Bindings) (values : Table String Value) (e : Expr α) :
    (e.trace b.host values).1 = e.eval b values [] :=
  e.related_evaluate Bindings.forgetting (i := b.host.interface values)
    (j := b.interface values) rfl (fun f _ args s => b.answer_host s f args) [] []

/-- Without functions of the host nothing asks to end the session. -/
theorem Expr.stays_eval (values : Table String Value) (e : Expr α) :
    Stays (e.eval [] values []) := by
  obtain ⟨hanswers, hends⟩ := e.ends_trace [] values
  rw [← e.trace_result [] values]
  intro hquit
  obtain ⟨c, hc, hbyHost, -⟩ := hends.eq_quit_iff.mp hquit
  obtain ⟨before, hanswer⟩ := hanswers c hc
  rw [hanswer] at hbyHost
  exact Bool.false_ne_true hbyHost

end CelShell
