import CelShell.Proofs.Eval.NoQuit
import CelShell.Eval.Program

/-!
# Loops that look for a deciding element

`all` and `exists` go through the outcomes of their body up to the first one that stops them: a
truth value that decides, or a value that is none (`Evaluation.search_run`). A conjunction or
disjunction of any shape goes by all of its operands, and takes an operand that is no truth value
for one that does not decide (`Expr.Chain.eval_eq_deciding_iff`). So a loop agrees with the chain of
its outcomes wherever it has a value, and a chain can have a value where the loop has none:
`Expr.loop_agrees_with_chain` says when.
-/

namespace CelShell

namespace Evaluation

/-- An outcome that is a truth value or an error. -/
def IsTruth (r : Except EvalError Value) : Prop := ∀ v, r = .ok v → ∃ t, v = .bool t

/-- An evaluation after a value. -/
theorem run_bind_ok {x : Evaluation Id Value} {v : Value} (h : x.run = .ok v)
    (f : Value → Evaluation Id Value) : (x >>= f).run = (f v).run := by
  rw [ExceptT.run_bind, h]
  rfl

/-! ## Searches -/

/-- Whether the outcome of a body stops the search for a deciding one. -/
def stops (deciding : Bool) : Except EvalError Value → Bool
  | .error e => e.isQuit
  | .ok (.bool t) => t == deciding
  | .ok _ => true

/-- How a search ends with the outcome that stops it. -/
def stopped (kind : Loop) : Except EvalError Value → Except EvalError Value
  | .error e => .error e
  | .ok (.bool t) => .ok (.bool t)
  | .ok v => refused kind.name [v]

/-- The error that an outcome is. -/
def error? : Except EvalError Value → Option EvalError
  | .error e => some e
  | .ok _ => none

/-- How a search ends that nothing stops. -/
def exhausted (deciding : Bool) : Option EvalError → Except EvalError Value
  | some e => .error e
  | none => .ok (.bool !deciding)

/-- A search ends with the first outcome that stops it. If none does, it ends in the first error, or
without a deciding element. -/
theorem search_run (kind : Loop) (deciding : Bool) (body : Value → Evaluation Id Value)
    (deferred : Option EvalError) (items : List Value) :
    (search kind deciding body deferred items).run =
      match (items.map fun v => (body v).run).find? (stops deciding) with
      | some r => stopped kind r
      | none => exhausted deciding
          (deferred.or ((items.map fun v => (body v).run).findSome? error?)) := by
  induction items generalizing deferred with
  | nil => cases deferred <;> rfl
  | cons v rest ih =>
    have hstep : ∀ f : Except EvalError Value → Evaluation Id Value,
        (outcome (body v) >>= f).run = (f (body v).run).run := fun f => rfl
    rw [search, hstep, List.map_cons, List.find?_cons, List.findSome?_cons]
    cases (body v).run with
    | error e =>
      have hfirst : ∀ other : Option EvalError,
          deferred.or (some e) = (some (deferred.getD e)).or other := by
        cases deferred <;> exact fun _ => rfl
      cases e with
      | quit => rfl
      | _ =>
        -- Of the errors that are put off the first one counts.
        show (search kind deciding body (some (deferred.getD _)) rest).run = _
        rw [ih, ← hfirst]
        rfl
    | ok w =>
      cases w with
      | bool t =>
        by_cases ht : t = deciding
        · have hstops : stops deciding (.ok (.bool t)) = true := beq_iff_eq.mpr ht
          rw [hstops, ht]
          show ExceptT.run (if deciding = deciding then _ else _) = _
          rw [if_pos rfl]
          rfl
        · have hstops : stops deciding (.ok (.bool t)) = false := beq_eq_false_iff_ne.mpr ht
          rw [hstops]
          show ExceptT.run (if t = deciding then _ else _) = _
          rw [if_neg ht, ih]
          rfl
      | _ => rfl

variable {kind : Loop} {deciding : Bool} {outcomes : List (Except EvalError Value)}

/-- How a search ends, by the outcomes of its body. -/
def searched (kind : Loop) (deciding : Bool) (outcomes : List (Except EvalError Value)) :
    Except EvalError Value :=
  match outcomes.find? (stops deciding) with
  | some r => stopped kind r
  | none => exhausted deciding (outcomes.findSome? error?)

/-- An outcome other than the demand to end the session lets a search go on if it is a truth value
that does not decide, or an error. -/
theorem stops_eq_false_iff {r : Except EvalError Value} (hquit : r ≠ .error .quit) :
    stops deciding r = false ↔ IsTruth r ∧ r ≠ .ok (.bool deciding) := by
  rcases r with e | v
  · refine iff_of_true ?_ ⟨nofun, nofun⟩
    cases e with
    | quit => exact absurd rfl hquit
    | _ => rfl
  · cases v with
    | bool t =>
      have htruth : IsTruth (.ok (.bool t)) := fun v hv => ⟨t, (Except.ok.inj hv).symm⟩
      rw [and_iff_right htruth]
      simp [stops]
    | _ => exact iff_of_false Bool.noConfusion fun h => nomatch h.1 _ rfl

/-- A value that lets a search go on is the other truth value. -/
theorem eq_not_deciding {r : Except EvalError Value} (hstops : ¬ stops deciding r = true)
    (hvalue : error? r = none) : r = .ok (.bool !deciding) := by
  rcases r with e | v
  · cases hvalue
  · cases v with
    | bool t =>
      have ht : t ≠ deciding := fun h => hstops (beq_iff_eq.mpr h)
      rw [Bool.eq_not.mpr ht]
    | _ => exact absurd rfl hstops

/-- A value with which a search stops is the outcome that stops it. -/
theorem stopped_eq_ok {r : Except EvalError Value} {v : Value} (h : stopped kind r = .ok v) :
    r = .ok v ∧ ∃ t, v = .bool t := by
  rcases r with e | w
  · cases h
  · cases w with
    | bool t =>
      obtain rfl := Except.ok.inj h
      exact ⟨rfl, t, rfl⟩
    | _ => cases h

/-- A search that nothing stops has found no deciding element. -/
theorem exhausted_ne_deciding (error : Option EvalError) :
    exhausted deciding error ≠ .ok (.bool deciding) := by
  cases error <;> cases deciding <;> exact nofun

/-- The value of a search is a truth value. -/
theorem isTruth_searched : IsTruth (searched kind deciding outcomes) := by
  intro v h
  unfold searched at h
  split at h
  · exact (stopped_eq_ok h).2
  · unfold exhausted at h
    split at h
    · cases h
    · exact ⟨!deciding, (Except.ok.inj h).symm⟩

/-- A search finds a deciding element if there is one with nothing but truth values and errors
before it. -/
theorem searched_eq_deciding_iff (hquit : .error .quit ∉ outcomes) :
    searched kind deciding outcomes = .ok (.bool deciding) ↔
      ∃ before after, outcomes = before ++ .ok (.bool deciding) :: after ∧
        ∀ r ∈ before, IsTruth r := by
  unfold searched
  constructor
  · intro h
    cases hfind : outcomes.find? (stops deciding) with
    | some r =>
      rw [hfind] at h
      obtain ⟨rfl, -⟩ := stopped_eq_ok h
      obtain ⟨-, before, after, hsplit, hbefore⟩ := List.find?_eq_some_iff_append.mp hfind
      refine ⟨before, after, hsplit, fun r hr => ?_⟩
      have hstays : r ≠ .error .quit := by
        rintro rfl
        exact hquit (hsplit ▸ List.mem_append_left _ hr)
      exact ((stops_eq_false_iff hstays).mp (by simpa using hbefore r hr)).1
    | none =>
      rw [hfind] at h
      exact absurd h (exhausted_ne_deciding _)
  · rintro ⟨before, after, rfl, hbefore⟩
    rw [List.find?_append]
    cases hfind : before.find? (stops deciding) with
    | some r =>
      -- The element may decide that was taken for one of those before it.
      have hr := List.mem_of_find?_eq_some hfind
      have hstops := List.find?_some hfind
      have hstays : r ≠ .error .quit := by
        rintro rfl
        exact hquit (List.mem_append_left _ hr)
      have hdecides : r = .ok (.bool deciding) := by
        by_contra hne
        rw [(stops_eq_false_iff hstays).mpr ⟨hbefore r hr, hne⟩] at hstops
        cases hstops
      rw [hdecides]
      rfl
    | none =>
      have hstops : stops deciding (.ok (.bool deciding)) = true := beq_self_eq_true deciding
      rw [List.find?_cons, hstops]
      rfl

/-- A search finds no deciding element and no error if all outcomes are the other truth value. -/
theorem searched_eq_not_deciding_iff :
    searched kind deciding outcomes = .ok (.bool !deciding) ↔
      ∀ r ∈ outcomes, r = .ok (.bool !deciding) := by
  unfold searched
  constructor
  · intro h
    cases hfind : outcomes.find? (stops deciding) with
    | some r =>
      -- Of the truth values only the one that decides stops a search.
      rw [hfind] at h
      obtain ⟨rfl, -⟩ := stopped_eq_ok h
      have hstops := List.find?_some hfind
      cases deciding <;> cases hstops
    | none =>
      rw [hfind] at h
      cases herror : outcomes.findSome? error? with
      | some e =>
        rw [herror] at h
        cases h
      | none =>
        exact fun r hr => eq_not_deciding (List.find?_eq_none.mp hfind r hr)
          (List.findSome?_eq_none_iff.mp herror r hr)
  · intro h
    have hfind : outcomes.find? (stops deciding) = none := by
      rw [List.find?_eq_none]
      intro r hr
      rw [h r hr]
      cases deciding <;> exact Bool.false_ne_true
    have herror : outcomes.findSome? error? = none := by
      rw [List.findSome?_eq_none_iff]
      intro r hr
      rw [h r hr]
      rfl
    rw [hfind, herror]
    rfl

/-! ## Connectives -/

/-- How a connective ends, by the outcomes of its operands. -/
def connected (function : String) (absorbing : Bool) (l r : Except EvalError Value) :
    Except EvalError Value :=
  if settles absorbing l then l
  else if settles absorbing r then r
  else
    match l, r with
    | .ok (.bool _), .ok (.bool _) => .ok (.bool !absorbing)
    | .ok a, .ok b => refused function [a, b]
    | .error e, _ => .error e
    | .ok _, .error e => .error e

/-- A connective goes by the outcomes of its operands. -/
theorem connective_run (function : String) (absorbing : Bool) (left right : Suspended Id) :
    (connective function absorbing left right).run =
      connected function absorbing (left ()).run (right ()).run := by
  have hstep : ∀ (e : Evaluation Id Value) (f : Except EvalError Value → Evaluation Id Value),
      (outcome e >>= f).run = (f e.run).run := fun e f => rfl
  unfold connective connected
  rw [hstep]
  -- Only the two outcomes matter from here on.
  generalize (left ()).run = l
  split
  · rfl
  · rw [hstep]
    generalize (right ()).run = r
    split
    · rfl
    · rcases l with e | a
      · rfl
      · rcases r with e | b
        · cases a <;> rfl
        · cases a <;> cases b <;> rfl

variable {function : String} {absorbing : Bool} {l r : Except EvalError Value}

/-- An outcome other than the demand to end the session settles a connective if it is the absorbing
truth value. -/
theorem settles_iff (hquit : r ≠ .error .quit) :
    settles absorbing r = true ↔ r = .ok (.bool absorbing) := by
  rcases r with e | v
  · refine iff_of_false ?_ nofun
    cases e with
    | quit => exact absurd rfl hquit
    | _ => exact Bool.false_ne_true
  · cases v with
    | bool t => simp [settles]
    | _ => exact iff_of_false Bool.false_ne_true nofun

/-- One operand is enough for the absorbing value. -/
theorem connected_eq_absorbing_iff (hl : l ≠ .error .quit) (hr : r ≠ .error .quit) :
    connected function absorbing l r = .ok (.bool absorbing) ↔
      l = .ok (.bool absorbing) ∨ r = .ok (.bool absorbing) := by
  unfold connected
  split
  · next h => exact iff_of_true ((settles_iff hl).mp h) (Or.inl ((settles_iff hl).mp h))
  · next hleft =>
    split
    · next h => exact iff_of_true ((settles_iff hr).mp h) (Or.inr ((settles_iff hr).mp h))
    · next hright =>
      refine iff_of_false ?_ (not_or.mpr ⟨mt (settles_iff hl).mpr hleft,
        mt (settles_iff hr).mpr hright⟩)
      split <;> cases absorbing <;> exact nofun

/-- It takes both operands for the other value. -/
theorem connected_eq_not_absorbing_iff (hl : l ≠ .error .quit) (hr : r ≠ .error .quit) :
    connected function absorbing l r = .ok (.bool !absorbing) ↔
      l = .ok (.bool !absorbing) ∧ r = .ok (.bool !absorbing) := by
  unfold connected
  split
  · next h =>
    rw [(settles_iff hl).mp h]
    cases absorbing <;> simp
  · next hleft =>
    split
    · next h =>
      rw [(settles_iff hr).mp h]
      cases absorbing <;> simp
    · next hright =>
      rw [settles_iff hl] at hleft
      rw [settles_iff hr] at hright
      split
      · next s t =>
        -- Truth values that do not absorb are the other one.
        have hs : s = !absorbing := by
          cases s <;> cases absorbing <;> first | rfl | exact absurd rfl hleft
        have ht : t = !absorbing := by
          cases t <;> cases absorbing <;> first | rfl | exact absurd rfl hright
        exact iff_of_true rfl ⟨by rw [hs], by rw [ht]⟩
      · next hother =>
        exact iff_of_false nofun fun h =>
          hother _ _ (Except.ok.inj h.1) (Except.ok.inj h.2)
      · exact iff_of_false nofun fun h => nomatch h.1
      · exact iff_of_false nofun fun h => nomatch h.2

/-- The value of a connective is a truth value. -/
theorem isTruth_connected : IsTruth (connected function absorbing l r) := by
  -- An outcome that settles the connective is a truth value.
  have hsettled : ∀ o : Except EvalError Value, settles absorbing o = true → IsTruth o := by
    intro o ho v hv
    subst hv
    cases v with
    | bool t => exact ⟨t, rfl⟩
    | _ => cases ho
  unfold connected
  split
  · next h => exact hsettled l h
  · split
    · next h => exact hsettled r h
    · split
      · exact fun v hv => ⟨!absorbing, (Except.ok.inj hv).symm⟩
      all_goals exact nofun

/-- A connective does not make up the demand to end the session. -/
theorem connected_ne_quit (hl : l ≠ .error .quit) (hr : r ≠ .error .quit) :
    connected function absorbing l r ≠ .error .quit := by
  unfold connected
  split
  · exact hl
  · split
    · exact hr
    · split
      · exact nofun
      · exact nofun
      · exact hl
      · exact hr

end Evaluation

namespace Expr

open Evaluation

variable {α : Type} {b : Bindings} {values scope : Table String Value}

/-! ## Chains -/

/-- The operator whose chains a loop corresponds to, with the truth value that decides both. -/
def IsDecidedBy (kind : Loop) (op : BinaryOp) (deciding : Bool) : Prop :=
  (kind = .all ∧ op = .and ∧ deciding = false) ∨ (kind = .any ∧ op = .or ∧ deciding = true)

/-- An expression that joins some operands, in their order, by one operator. -/
inductive Chain (op : BinaryOp) : List (Expr α) → Expr α → Prop
  /-- A chain of one operand. -/
  | operand (e : Expr α) : Chain op [e] e
  /-- Two chains, joined. -/
  | join (mark : α) {es fs : List (Expr α)} {left right : Expr α} (hleft : Chain op es left)
    (hright : Chain op fs right) : Chain op (es ++ fs) (.call mark op.function [left, right])

variable {kind : Loop} {op : BinaryOp} {deciding : Bool}

/-- A conjunction or disjunction goes by the outcomes of its operands. -/
theorem eval_connective (hop : IsDecidedBy kind op deciding) (mark : α) (left right : Expr α) :
    (call mark op.function [left, right]).eval b values scope =
      connected op.function deciding (left.eval b values scope) (right.eval b values scope) := by
  unfold eval
  rw [evaluate, suspended, suspended, suspended]
  unfold Evaluation.call
  rcases hop with ⟨-, rfl, rfl⟩ | ⟨-, rfl, rfl⟩
  · have hname : BinaryOp.ofFunction? BinaryOp.and.function = some .and := by decide
    rw [hname]
    exact connective_run BinaryOp.and.function false _ _
  · have hname : BinaryOp.ofFunction? BinaryOp.or.function = some .or := by decide
    rw [hname]
    exact connective_run BinaryOp.or.function true _ _

namespace Chain

variable {operands : List (Expr α)} {chain : Expr α}

/-- A chain does not ask to end the session if no operand does. -/
theorem eval_ne_quit (h : Chain op operands chain) (hop : IsDecidedBy kind op deciding)
    (hquit : ∀ e ∈ operands, e.eval b values scope ≠ .error .quit) :
    chain.eval b values scope ≠ .error .quit := by
  induction h with
  | operand e => exact hquit e (List.mem_singleton_self e)
  | join mark _ _ ihleft ihright =>
    obtain ⟨hes, hfs⟩ := List.forall_mem_append.mp hquit
    rw [eval_connective hop]
    exact connected_ne_quit (ihleft hes) (ihright hfs)

/-- One operand that decides is enough. -/
theorem eval_eq_deciding_iff (h : Chain op operands chain) (hop : IsDecidedBy kind op deciding)
    (hquit : ∀ e ∈ operands, e.eval b values scope ≠ .error .quit) :
    chain.eval b values scope = .ok (.bool deciding) ↔
      ∃ e ∈ operands, e.eval b values scope = .ok (.bool deciding) := by
  induction h with
  | operand e => simp
  | join mark hleft hright ihleft ihright =>
    obtain ⟨hes, hfs⟩ := List.forall_mem_append.mp hquit
    rw [eval_connective hop, connected_eq_absorbing_iff (hleft.eval_ne_quit hop hes)
      (hright.eval_ne_quit hop hfs), ihleft hes, ihright hfs]
    simp only [List.mem_append, or_and_right, exists_or]

/-- It takes all operands for the other value. -/
theorem eval_eq_not_deciding_iff (h : Chain op operands chain)
    (hop : IsDecidedBy kind op deciding)
    (hquit : ∀ e ∈ operands, e.eval b values scope ≠ .error .quit) :
    chain.eval b values scope = .ok (.bool !deciding) ↔
      ∀ e ∈ operands, e.eval b values scope = .ok (.bool !deciding) := by
  induction h with
  | operand e => simp
  | join mark hleft hright ihleft ihright =>
    obtain ⟨hes, hfs⟩ := List.forall_mem_append.mp hquit
    rw [eval_connective hop, connected_eq_not_absorbing_iff (hleft.eval_ne_quit hop hes)
      (hright.eval_ne_quit hop hfs), ihleft hes, ihright hfs, List.forall_mem_append]

/-- The value of a chain is a truth value, unless the chain is one operand whose value is none. -/
theorem isTruth_eval (h : Chain op operands chain) (hop : IsDecidedBy kind op deciding)
    (hoperand : ∀ e, operands = [e] → IsTruth (e.eval b values scope)) :
    IsTruth (chain.eval b values scope) := by
  cases h with
  | operand => exact hoperand _ rfl
  | join mark hleft hright =>
    rw [eval_connective hop]
    exact isTruth_connected

/-- None of the outcomes asks to end the session if no operand does. -/
theorem quit_notMem (hquit : ∀ e ∈ operands, e.eval b values scope ≠ .error .quit) :
    .error .quit ∉ operands.map fun e => e.eval b values scope := by
  intro hmem
  obtain ⟨e, he, hend⟩ := List.mem_map.mp hmem
  exact hquit e he hend

/-- A chain has the value of a search in the outcomes of its operands, if that has one. -/
theorem eval_of_searched (h : Chain op operands chain) (hop : IsDecidedBy kind op deciding)
    (hquit : ∀ e ∈ operands, e.eval b values scope ≠ .error .quit) {v : Value}
    (hv : searched kind deciding (operands.map fun e => e.eval b values scope) = .ok v) :
    chain.eval b values scope = .ok v := by
  -- The value is one of the two truth values, and each of them has its own reason.
  obtain ⟨t, rfl⟩ := isTruth_searched v hv
  by_cases ht : t = deciding
  · subst ht
    obtain ⟨before, after, hsplit, -⟩ := (searched_eq_deciding_iff (quit_notMem hquit)).mp hv
    have hmem : .ok (.bool t) ∈ operands.map fun e => e.eval b values scope :=
      hsplit ▸ List.mem_append_right before List.mem_cons_self
    obtain ⟨e, he, hdecides⟩ := List.mem_map.mp hmem
    exact (h.eval_eq_deciding_iff hop hquit).mpr ⟨e, he, hdecides⟩
  · obtain rfl : t = !deciding := Bool.eq_not.mpr ht
    have hall := searched_eq_not_deciding_iff.mp hv
    exact (h.eval_eq_not_deciding_iff hop hquit).mpr fun e he =>
      hall _ (List.mem_map_of_mem he)

/-- A search in the outcomes of the operands has the value of the chain, if all of them are truth
values or errors. -/
theorem searched_of_eval (h : Chain op operands chain) (hop : IsDecidedBy kind op deciding)
    (hquit : ∀ e ∈ operands, e.eval b values scope ≠ .error .quit)
    (htruth : ∀ e ∈ operands, IsTruth (e.eval b values scope)) {v : Value}
    (hv : chain.eval b values scope = .ok v) :
    searched kind deciding (operands.map fun e => e.eval b values scope) = .ok v := by
  have hchain : IsTruth (chain.eval b values scope) :=
    h.isTruth_eval hop fun e he => htruth e (he ▸ List.mem_singleton_self e)
  obtain ⟨t, rfl⟩ := hchain v hv
  by_cases ht : t = deciding
  · subst ht
    obtain ⟨e, he, hdecides⟩ := (h.eval_eq_deciding_iff hop hquit).mp hv
    -- No outcome stops the search before it comes to this operand.
    obtain ⟨before, after, rfl⟩ := List.append_of_mem he
    rw [searched_eq_deciding_iff (quit_notMem hquit)]
    refine ⟨before.map _, after.map _, by rw [List.map_append, List.map_cons, hdecides], ?_⟩
    exact List.forall_mem_map.mpr fun e he => htruth e (List.mem_append_left _ he)
  · obtain rfl : t = !deciding := Bool.eq_not.mpr ht
    have hall := (h.eval_eq_not_deciding_iff hop hquit).mp hv
    exact searched_eq_not_deciding_iff.mpr (List.forall_mem_map.mpr hall)

end Chain

/-- A loop goes by the outcomes of its body. -/
theorem eval_loop (hkind : IsDecidedBy kind op deciding) (mark : α) (var : String)
    {range body : Expr α} {v : Value} {items : List Value}
    (hrange : range.eval b values scope = .ok v) (hitems : v.items? = some items) :
    (comprehension mark kind var range body).eval b values scope =
      searched kind deciding
        (items.map fun item => body.eval b values ((var, item) :: scope)) := by
  -- With its range evaluated a loop is a search.
  have hloop : (comprehension mark kind var range body).eval b values scope =
      (search kind deciding (fun item => body.evaluate (b.interface values) ((var, item) :: scope))
        none items).run := by
    unfold eval at *
    rw [evaluate, run_bind_ok hrange, hitems]
    rcases hkind with ⟨rfl, -, rfl⟩ | ⟨rfl, -, rfl⟩ <;> rfl
  rw [hloop, search_run]
  rfl

/-- Loops and chains. Over a range with items, and with a body that does not ask to end the session
for any of them, `all` is `false` if the body is `false` for an item before which the body gives
truth values and errors only, `true` if it is `true` for all items, and an error otherwise. A
conjunction of operands with the outcomes of the body, in any shape, is `false` if one of them is,
wherever it stands, `true` if all are, and an error otherwise if there is more than one operand. So
the conjunction has the value of the loop if that has one, and the other way round if the body gives
truth values and errors only. The same holds of `exists` and disjunctions with `true` and `false`
exchanged. -/
theorem loop_agrees_with_chain {kind : Loop} {op : BinaryOp} {deciding : Bool}
    (hkind : (kind = .all ∧ op = .and ∧ deciding = false) ∨
      (kind = .any ∧ op = .or ∧ deciding = true))
    (b : Bindings) (values scope : Table String Value) (mark : α) (var : String)
    (range body : Expr α) {v : Value} {items : List Value}
    (hrange : range.eval b values scope = .ok v) (hitems : v.items? = some items)
    (hquit : ∀ item ∈ items, body.eval b values ((var, item) :: scope) ≠ .error .quit) :
    let outcomes := items.map fun item => body.eval b values ((var, item) :: scope)
    let result := (comprehension mark kind var range body).eval b values scope
    (result = .ok (.bool deciding) ↔ ∃ before after,
        outcomes = before ++ .ok (.bool deciding) :: after ∧ ∀ r ∈ before, IsTruth r) ∧
      (result = .ok (.bool !deciding) ↔ ∀ r ∈ outcomes, r = .ok (.bool !deciding)) ∧
      IsTruth result ∧
      ∀ (operands : List (Expr α)) (chain : Expr α), Chain op operands chain →
        (operands.map fun e => e.eval b values scope) = outcomes →
        (chain.eval b values scope = .ok (.bool deciding) ↔ .ok (.bool deciding) ∈ outcomes) ∧
          (chain.eval b values scope = .ok (.bool !deciding) ↔
            ∀ r ∈ outcomes, r = .ok (.bool !deciding)) ∧
          (2 ≤ operands.length → IsTruth (chain.eval b values scope)) ∧
          (∀ w, result = .ok w → chain.eval b values scope = .ok w) ∧
          ((∀ r ∈ outcomes, IsTruth r) →
            ∀ w, chain.eval b values scope = .ok w → result = .ok w) := by
  intro outcomes result
  have hresult : result = searched kind deciding outcomes :=
    eval_loop hkind mark var hrange hitems
  have hstays : .error .quit ∉ outcomes := by
    intro hmem
    obtain ⟨item, hitem, hend⟩ := List.mem_map.mp hmem
    exact hquit item hitem hend
  -- From here on the loop is a search in any outcomes.
  clear_value outcomes result
  subst hresult
  refine ⟨searched_eq_deciding_iff hstays, searched_eq_not_deciding_iff, isTruth_searched, ?_⟩
  rintro operands chain hchain rfl
  have hoperands : ∀ e ∈ operands, e.eval b values scope ≠ .error .quit :=
    fun e he hend => hstays (hend ▸ List.mem_map_of_mem he)
  refine ⟨?_, ?_, ?_, fun w => hchain.eval_of_searched hkind hoperands, fun htruth w => ?_⟩
  · rw [hchain.eval_eq_deciding_iff hkind hoperands, List.mem_map]
  · rw [hchain.eval_eq_not_deciding_iff hkind hoperands, List.forall_mem_map]
  · intro hlength
    refine hchain.isTruth_eval hkind fun e he => ?_
    rw [he, List.length_singleton] at hlength
    omega
  · exact hchain.searched_of_eval hkind hoperands (List.forall_mem_map.mp htruth)

/-- The quotient of one by zero is undecided, the one by one decides, in a loop as in a
disjunction. -/
theorem loop_agrees_with_chain_quotients :
    let range : Expr Unit := .list () [.literal () (.int 0), .literal () (.int 1)]
    let isOne : Expr Unit → Expr Unit := fun divisor =>
      .call () "_==_" [.call () "_/_" [.literal () (.int 1), divisor], .literal () (.int 1)]
    let loop : Expr Unit := .comprehension () .any "x" range (isOne (.ident () "x"))
    let chain : Expr Unit :=
      .call () "_||_" [isOne (.literal () (.int 0)), isOne (.literal () (.int 1))]
    loop.eval [] [] [] = .ok (.bool true) ∧ chain.eval [] [] [] = .ok (.bool true) := by
  intro range isOne loop chain
  obtain ⟨hloop, -, -, hchain⟩ :=
    loop_agrees_with_chain (Or.inr ⟨rfl, rfl, rfl⟩) [] [] [] () "x" range
      (isOne (.ident () "x")) (v := .list [.int 0, .int 1]) rfl rfl (by
        rintro item hitem
        rcases List.mem_pair.mp hitem with rfl | rfl <;> exact nofun)
  -- The first item is undecided and the second decides.
  have hvalue : loop.eval [] [] [] = .ok (.bool true) := by
    refine hloop.mpr ⟨[.error .divisionByZero], [], rfl, fun r hr => ?_⟩
    rw [List.mem_singleton.mp hr]
    exact nofun
  have hjoined : Chain .or [isOne (.literal () (.int 0)), isOne (.literal () (.int 1))] chain :=
    .join () (.operand _) (.operand _)
  exact ⟨hvalue, (hchain _ chain hjoined rfl).2.2.2.1 _ hvalue⟩

/-- The number is taken for undecided in a conjunction, but stops the loop before it comes to the
element that decides. -/
theorem loop_stops_before_deciding :
    let x : Expr Unit := .ident () "x"
    let elements : List (Expr Unit) := [.literal () (.int 1), .literal () (.bool false)]
    x.eval [] [] [("x", .bool false)] = .ok (.bool false) ∧
      (Expr.call () "_&&_" elements).eval [] [] [] = .ok (.bool false) ∧
      (Expr.comprehension () .all "x" (.list () elements) x).eval [] [] [] =
        .error (.noOverload "all" ["int"]) :=
  ⟨rfl, rfl, rfl⟩

end Expr

end CelShell
