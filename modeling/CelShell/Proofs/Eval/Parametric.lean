import CelShell.Eval.Program
import CelShell.Proofs.Eval.NoQuit
import CelShell.Proofs.Expr.Calls
import Mathlib.Data.List.Find
import Mathlib.Data.List.Forall2

/-!
# Evaluation is parametric in its interface

An evaluation knows of its host what the interface tells it. So a relation between the evaluations
of two hosts that holds of their calls holds of every evaluation, if it is one that sequences and
the inspection of outcomes keep. `Evaluation.Relation` says what that takes, every step of an
evaluation has a lemma, and `Expr.related_evaluate` is the induction over trees. Only the calls of
functions that the tree calls have to be related.

A first consequence is that an evaluation depends on the functions that the tree calls and on no
others (`Expr.evaluate_congr`).
-/

namespace CelShell

namespace Evaluation

/-- A relation between evaluations in two monads that every step of an evaluation keeps. How an
evaluation ended may be looked at by a step that passes the demand to end the session on. -/
structure Relation (m n : Type → Type) [Monad m] [Monad n] where
  /-- The evaluations are related. -/
  Rel : {α : Type} → Evaluation m α → Evaluation n α → Prop
  /-- Ends other than the demand to end the session are related. -/
  ended {α : Type} {r : Except EvalError α} (h : Stays r) :
    Rel (Evaluation.ended r) (Evaluation.ended r)
  /-- One evaluation after the other. -/
  bind {α β : Type} {x : Evaluation m α} {y : Evaluation n α} {f : α → Evaluation m β}
    {g : α → Evaluation n β} (h : Rel x y) (hf : ∀ a, Rel (f a) (g a)) : Rel (x >>= f) (y >>= g)
  /-- An evaluation after the end of another. -/
  outcome {α β : Type} {x : Evaluation m α} {y : Evaluation n α}
    {f : Except EvalError α → Evaluation m β} {g : Except EvalError α → Evaluation n β}
    (h : Rel x y) (hf : ∀ r, Stays r → Rel (f r) (g r))
    (hquit : f (.error .quit) = Evaluation.ended (.error .quit))
    (hquit' : g (.error .quit) = Evaluation.ended (.error .quit)) :
    Rel (Evaluation.outcome x >>= f) (Evaluation.outcome y >>= g)

namespace Relation

variable {m n : Type → Type} [Monad m] [Monad n] (R : Relation m n) {α : Type}

/-- The evaluations are related one by one. -/
def All (R : Relation m n) : List (Suspended m) → List (Suspended n) → Prop :=
  List.Forall₂ fun e e' => R.Rel (e ()) (e' ())

/-- The evaluations of keys and values are related one by one. -/
def AllEntries (R : Relation m n) :
    List (Suspended m × Suspended m) → List (Suspended n × Suspended n) → Prop :=
  List.Forall₂ fun e e' => R.Rel (e.1 ()) (e'.1 ()) ∧ R.Rel (e.2 ()) (e'.2 ())

/-- A value is related to itself. -/
theorem pure (a : α) : R.Rel (Pure.pure a) (Pure.pure a) := R.ended (.ok a)

/-- So are the errors of arguments that a function does not take. -/
theorem refuse (function : String) (args : List Value) :
    R.Rel (Evaluation.refuse function args : Evaluation m α)
      (Evaluation.refuse function args) :=
  R.ended (.refused function args)

/-- The values of some evaluations. -/
theorem all {es : List (Suspended m)} {es' : List (Suspended n)} (h : R.All es es') :
    R.Rel (Evaluation.all es) (Evaluation.all es') := by
  induction h with
  | nil => exact R.pure []
  | cons hfirst _ ih => exact R.bind hfirst fun v => R.bind ih fun vs => R.pure (v :: vs)

/-! ## Connectives and the conditional -/

variable {left right : Suspended m} {left' right' : Suspended n}

/-- A connective; only an operand that does not ask to end the session lets it go on. -/
theorem connective (function : String) (absorbing : Bool) (hleft : R.Rel (left ()) (left' ()))
    (hright : R.Rel (right ()) (right' ())) :
    R.Rel (Evaluation.connective function absorbing left right)
      (Evaluation.connective function absorbing left' right') := by
  refine R.outcome hleft (fun l hl => ?_) rfl rfl
  -- An operand that settles the outcome leaves the other alone.
  split
  · exact R.ended hl
  · refine R.outcome hright (fun r hr => ?_) rfl rfl
    split
    · exact R.ended hr
    · refine R.bind (R.ended hl) fun a => R.bind (R.ended hr) fun b => ?_
      split
      · exact R.pure _
      · exact R.refuse _ _

/-- A conditional. -/
theorem conditional {condition : Suspended m} {condition' : Suspended n}
    (hcondition : R.Rel (condition ()) (condition' ())) (hyes : R.Rel (left ()) (left' ()))
    (hno : R.Rel (right ()) (right' ())) :
    R.Rel (Evaluation.conditional condition left right)
      (Evaluation.conditional condition' left' right') := by
  refine R.bind hcondition fun v => ?_
  split
  · exact hyes
  · exact hno
  · exact R.refuse _ _

/-- A call without a target. -/
theorem call (function : String) {apply : List Value → Evaluation m Value}
    {apply' : List Value → Evaluation n Value} (happly : ∀ args, R.Rel (apply args) (apply' args))
    {es : List (Suspended m)} {es' : List (Suspended n)} (h : R.All es es') :
    R.Rel (Evaluation.call function apply es) (Evaluation.call function apply' es') := by
  have hall : R.Rel (do apply (← Evaluation.all es)) (do apply' (← Evaluation.all es')) :=
    R.bind (R.all h) happly
  unfold Evaluation.call
  -- Which way is taken depends on the name and on the number of arguments, the same on both sides.
  generalize BinaryOp.ofFunction? function = op?
  rcases h with _ | ⟨hfirst, _ | ⟨hsecond, _ | ⟨hthird, _ | ⟨-, -⟩⟩⟩⟩
  case cons.cons.nil =>
    cases op? with
    | none => exact hall
    | some op =>
      cases op with
      | and => exact R.connective function false hfirst hsecond
      | or => exact R.connective function true hfirst hsecond
      | _ => exact hall
  case cons.cons.cons.nil =>
    cases op? with
    | none =>
      dsimp only
      split
      · exact R.conditional hfirst hsecond hthird
      · exact hall
    | some op => cases op <;> exact hall
  all_goals
    cases op? with
    | none => exact hall
    | some op => cases op <;> exact hall

/-! ## Maps and loops -/

/-- A map of entries. -/
theorem mapOf {es : List (Suspended m × Suspended m)} {es' : List (Suspended n × Suspended n)}
    (h : R.AllEntries es es') (entries : List (MapKey × Value)) :
    R.Rel (Evaluation.mapOf entries es) (Evaluation.mapOf entries es') := by
  induction h generalizing entries with
  | nil => exact R.pure _
  | cons hfirst _ ih =>
    refine R.bind hfirst.1 fun key => R.bind hfirst.2 fun value => ?_
    split
    · exact R.ended (.error rfl)
    · split
      · exact R.ended (.error rfl)
      · exact ih _

/-- The truth value of a body. -/
theorem truth (loop : Loop) (v : Value) :
    R.Rel (Evaluation.truth loop v) (Evaluation.truth loop v) := by
  unfold Evaluation.truth
  split
  · exact R.pure _
  · exact R.refuse _ _

section Loops

variable {body : Value → Evaluation m Value} {body' : Value → Evaluation n Value}
  (hbody : ∀ v, R.Rel (body v) (body' v))

include hbody

/-- The results of a body. -/
theorem collect (items : List Value) :
    R.Rel (Evaluation.collect body items) (Evaluation.collect body' items) := by
  induction items with
  | nil => exact R.pure []
  | cons v rest ih => exact R.bind (hbody v) fun r => R.bind ih fun rs => R.pure (r :: rs)

/-- The items of which a body holds. -/
theorem keep (loop : Loop) (items : List Value) :
    R.Rel (Evaluation.keep loop body items) (Evaluation.keep loop body' items) := by
  induction items with
  | nil => exact R.pure []
  | cons v rest ih =>
    refine R.bind (hbody v) fun r => R.bind (R.truth loop r) fun held => ?_
    exact R.bind ih fun kept => R.pure (if held then v :: kept else kept)

/-- A search puts errors of the body off, but not the demand to end the session. -/
theorem search (loop : Loop) (deciding : Bool) (deferred : Option EvalError)
    (hdeferred : deferred ≠ some .quit) (items : List Value) :
    R.Rel (Evaluation.search loop deciding body deferred items)
      (Evaluation.search loop deciding body' deferred items) := by
  induction items generalizing deferred with
  | nil =>
    unfold Evaluation.search
    split
    · exact R.ended fun he => hdeferred (congrArg some (Except.error.inj he))
    · exact R.pure _
  | cons v rest ih =>
    refine R.outcome (hbody v) (fun r hr => ?_) rfl rfl
    split
    · exact absurd rfl hr
    · next error hne =>
      -- The error that is put off is this one or an earlier one, neither the demand to end.
      refine ih _ fun hquit => ?_
      cases deferred with
      | none => exact hne (Option.some.inj hquit)
      | some first => exact hdeferred hquit
    · next result =>
      refine R.bind (R.truth loop result) fun b => ?_
      split
      · exact R.pure _
      · exact ih deferred hdeferred

/-- A loop over items. -/
theorem loop (kind : Loop) (items : List Value) :
    R.Rel (Evaluation.loop kind body items) (Evaluation.loop kind body' items) := by
  cases kind with
  | all => exact R.search hbody .all false none nofun items
  | any => exact R.search hbody .any true none nofun items
  | one => exact R.bind (R.keep hbody .one items) fun kept => R.pure _
  | map => exact R.bind (R.collect hbody items) fun results => R.pure _
  | filter => exact R.bind (R.keep hbody .filter items) fun kept => R.pure _

end Loops

/-- Equality is such a relation. -/
def eq (m : Type → Type) [Monad m] : Relation m m where
  Rel x y := x = y
  ended _ := rfl
  bind h hf := by rw [h, funext hf]
  outcome {α β x y f g} h hf hquit hquit' := by
    have hfg : f = g := by
      funext r
      by_cases hr : r = .error .quit
      · rw [hr, hquit, hquit']
      · exact hf r hr
    rw [h, hfg]

end Relation

end Evaluation

namespace Expr

open Evaluation

section

variable {α : Type} {m n : Type → Type} [Monad m] [Monad n] (R : Relation m n) {i : Interface m}
  {j : Interface n}

mutual

/-- Two evaluations of a tree are related if the calls of the functions that it calls are. -/
theorem related_evaluate (hvalues : i.values = j.values) : (e : Expr α) →
    (∀ f ∈ e.called, ∀ args, R.Rel (i.call f args) (j.call f args)) →
    ∀ scope, R.Rel (e.evaluate i scope) (e.evaluate j scope)
  | literal _ value, _, scope => R.pure (Value.ofLiteral value)
  | ident _ name, _, scope => by
    unfold evaluate
    rw [hvalues]
    split
    · exact R.pure _
    · exact R.ended (.error rfl)
  | select _ operand field testOnly, h, scope => by
    refine R.bind (related_evaluate hvalues operand h scope) fun v => R.ended ?_
    split
    · exact Value.stays_hasField field v
    · exact Value.stays_field field v
  | call _ function args, h, scope => by
    obtain ⟨hfunction, hargs⟩ := List.forall_mem_cons.mp h
    exact R.call function hfunction (related_suspended hvalues args hargs scope)
  | invoke m target function args, h, scope => by
    rw [called_invoke] at h
    obtain ⟨hfunction, hrest⟩ := List.forall_mem_cons.mp h
    obtain ⟨htarget, hargs⟩ := List.forall_mem_append.mp hrest
    -- The target is evaluated before the arguments and is the first of them.
    refine R.bind (related_evaluate hvalues target htarget scope) fun v => ?_
    exact R.bind (R.all (related_suspended hvalues args hargs scope)) fun vs => hfunction (v :: vs)
  | list _ elements, h, scope =>
    R.bind (R.all (related_suspended hvalues elements h scope)) fun vs => R.pure (Value.list vs)
  | map _ entries, h, scope => R.mapOf (related_suspendedEntries hvalues entries h scope) []
  | comprehension m kind var range body, h, scope => by
    rw [called_comprehension] at h
    obtain ⟨hrange, hbody⟩ := List.forall_mem_append.mp h
    refine R.bind (related_evaluate hvalues range hrange scope) fun v => ?_
    split
    · exact R.ended (.error rfl)
    · exact R.loop (fun item => related_evaluate hvalues body hbody ((var, item) :: scope)) kind _

/-- The evaluations of trees. -/
theorem related_suspended (hvalues : i.values = j.values) : (es : List (Expr α)) →
    (∀ f ∈ calledOfList es, ∀ args, R.Rel (i.call f args) (j.call f args)) →
    ∀ scope, R.All (suspended i scope es) (suspended j scope es)
  | [], _, _ => .nil
  | e :: rest, h, scope => by
    rw [calledOfList_cons] at h
    obtain ⟨hfirst, hrest⟩ := List.forall_mem_append.mp h
    exact .cons (related_evaluate hvalues e hfirst scope)
      (related_suspended hvalues rest hrest scope)

/-- The evaluations of keys and values. -/
theorem related_suspendedEntries (hvalues : i.values = j.values) :
    (entries : List (Expr α × Expr α)) →
    (∀ f ∈ calledOfEntries entries, ∀ args, R.Rel (i.call f args) (j.call f args)) →
    ∀ scope, R.AllEntries (suspendedEntries i scope entries) (suspendedEntries j scope entries)
  | [], _, _ => .nil
  | (k, v) :: rest, h, scope => by
    rw [calledOfEntries_cons] at h
    obtain ⟨hfirst, hrest⟩ := List.forall_mem_append.mp h
    obtain ⟨hkey, hvalue⟩ := List.forall_mem_append.mp hfirst
    exact .cons ⟨related_evaluate hvalues k hkey scope, related_evaluate hvalues v hvalue scope⟩
      (related_suspendedEntries hvalues rest hrest scope)

end

end

/-! ## Dependence on the functions that are called -/

variable {α : Type}

/-- An evaluation depends on the values of the variables and on the functions that the tree
calls. -/
theorem evaluate_congr {m : Type → Type} [Monad m] {i j : Interface m} {e : Expr α}
    (hvalues : i.values = j.values) (hcall : ∀ f ∈ e.called, i.call f = j.call f)
    (scope : Table String Value) : e.evaluate i scope = e.evaluate j scope :=
  related_evaluate (Relation.eq m) hvalues e (fun f hf args => congrFun (hcall f hf) args) scope

variable {e : Expr α} {b b' : Bindings}

/-- The value of an expression depends on the functions of the host that it calls. -/
theorem eval_congr (h : ∀ f ∈ e.called, Table.get? b f = Table.get? b' f)
    (values scope : Table String Value) : e.eval b values scope = e.eval b' values scope := by
  have hcall : ∀ f ∈ e.called, (b.interface values).call f = (b'.interface values).call f := by
    intro f hf
    funext args
    show b.call f args = b'.call f args
    unfold Bindings.call
    rw [h f hf]
  exact evaluate_congr (i := b.interface values) (j := b'.interface values) rfl hcall scope

/-- Whether all functions have implementations depends on those that are called. -/
theorem missing?_congr (h : ∀ f ∈ e.called, Table.get? b f = Table.get? b' f) :
    e.missing? b = e.missing? b' := by
  refine List.find?_congr fun f hf => ?_
  unfold Bindings.implements Table.contains
  rw [h f hf]

end Expr

end CelShell
