import CelShell.Proofs.Eval.Yields

/-!
# Safe evaluations

An outcome is safe if it is a value or an error of the values met, such as a missing key or an
overflow; an error of types, such as a missing overload, is not. Each way of putting evaluations
together has a lemma that says when the whole is safe. The parts have to be safe, and where a value
decides what comes next it has to be of the right kind, which `Yields` says of it.
-/

namespace CelShell

/-- Whether an error comes from the values met and may arise whatever their types are. -/
def EvalError.isValueFault : EvalError → Bool
  | noSuchKey _ | indexOutOfRange _ | divisionByZero | modulusByZero | overflow _ | conversion _
  | repeatedKey _ => true
  | _ => false

/-- The outcome is a value or an error of the values met. -/
def Safe (r : Except EvalError α) : Prop := ∀ e, r = .error e → e.isValueFault = true

namespace Safe

variable {α β : Type} {P : α → Prop}

/-- A value is safe. -/
theorem ok (a : α) : Safe (.ok a) := nofun

/-- An error that the values alone are to blame for is safe. -/
theorem error {e : EvalError} (h : e.isValueFault = true) : Safe (.error e : Except EvalError α) :=
  fun _ he => Except.error.inj he ▸ h

/-- One outcome after the other. -/
theorem bindExcept {r : Except EvalError α} {f : α → Except EvalError β} (h : Safe r)
    (hf : ∀ a, r = .ok a → Safe (f a)) : Safe (r >>= f) := by
  cases r with
  | ok a => exact hf a rfl
  | error e => exact error (h e rfl)

/-- One evaluation after the other, where the value of the first is of some kind. -/
theorem bind {e : Evaluation Id α} {f : α → Evaluation Id β} (h : Safe e.run)
    (hy : Yields P e.run) (hf : ∀ a, P a → Safe (f a).run) : Safe (e >>= f).run := by
  rw [ExceptT.run_bind]
  generalize e.run = r at h hy ⊢
  cases hy with
  | ok ha => exact hf _ ha
  | error => exact error (h _ rfl)

end Safe

namespace Ty

variable {v : Value}

/-- The values of the type of truth values. -/
theorem eq_bool_of_holds (h : bool.holds v = true) : ∃ b, v = .bool b := by
  cases v with
  | bool b => exact ⟨b, rfl⟩
  | _ => cases h

/-- The values of the type of signed integers. -/
theorem eq_int_of_holds (h : int.holds v = true) : ∃ n, v = .int n := by
  cases v with
  | int n => exact ⟨n, rfl⟩
  | _ => cases h

/-- The values of the type of unsigned integers. -/
theorem eq_uint_of_holds (h : uint.holds v = true) : ∃ n, v = .uint n := by
  cases v with
  | uint n => exact ⟨n, rfl⟩
  | _ => cases h

/-- The values of the type of doubles. -/
theorem eq_double_of_holds (h : double.holds v = true) : ∃ d, v = .double d := by
  cases v with
  | double d => exact ⟨d, rfl⟩
  | _ => cases h

/-- The values of the type of texts. -/
theorem eq_string_of_holds (h : string.holds v = true) : ∃ s, v = .string s := by
  cases v with
  | string s => exact ⟨s, rfl⟩
  | _ => cases h

end Ty

namespace Evaluation

variable {parts : List (Suspended Id)}

/-- The outcome of an evaluation is always a value. -/
theorem safe_outcome (e : Evaluation Id α) : Safe (outcome e).run := Safe.ok e.run

/-- The values of some evaluations. -/
theorem safe_all {types : List Ty}
    (hy : List.Forall₂ (fun t e => Yields (fun v => Ty.holds t v = true) (e ()).run) types parts)
    (h : ∀ e ∈ parts, Safe (e ()).run) : Safe (all parts).run := by
  induction hy with
  | nil => exact .ok _
  | cons hfirst hrest ih =>
    obtain ⟨hsafe, hsafes⟩ := List.forall_mem_cons.mp h
    unfold all
    refine hsafe.bind hfirst fun v _ => ?_
    exact (ih hsafes).bind (yields_all hrest) fun vs _ => .ok _

/-! ## Connectives and the conditional -/

/-- A connective of truth values. -/
theorem safe_connective {left right : Suspended Id} (function : String) (absorbing : Bool)
    (hleft : Safe (left ()).run) (hright : Safe (right ()).run)
    (hyl : Yields (fun v => Ty.bool.holds v = true) (left ()).run)
    (hyr : Yields (fun v => Ty.bool.holds v = true) (right ()).run) :
    Safe (connective function absorbing left right).run := by
  unfold connective
  -- What is known of the operands is carried along with their outcomes.
  have houtl : Yields (fun r => Safe r ∧ Yields (fun v => Ty.bool.holds v = true) r)
      (outcome (left ())).run := .ok ⟨hleft, hyl⟩
  have houtr : Yields (fun r => Safe r ∧ Yields (fun v => Ty.bool.holds v = true) r)
      (outcome (right ())).run := .ok ⟨hright, hyr⟩
  refine (safe_outcome _).bind houtl fun l hl => ?_
  split
  · exact hl.1
  · refine (safe_outcome _).bind houtr fun r hr => ?_
    split
    · exact hr.1
    · refine Safe.bind hl.1 (yields_ended hl.2) fun a ha => ?_
      refine Safe.bind hr.1 (yields_ended hr.2) fun b hb => ?_
      obtain ⟨x, rfl⟩ := Ty.eq_bool_of_holds ha
      obtain ⟨y, rfl⟩ := Ty.eq_bool_of_holds hb
      exact .ok _

/-- A conditional on a truth value. -/
theorem safe_conditional {condition yes no : Suspended Id} (hcondition : Safe (condition ()).run)
    (hy : Yields (fun v => Ty.bool.holds v = true) (condition ()).run) (hyes : Safe (yes ()).run)
    (hno : Safe (no ()).run) : Safe (conditional condition yes no).run := by
  unfold conditional
  refine hcondition.bind hy fun v hv => ?_
  obtain ⟨b, rfl⟩ := Ty.eq_bool_of_holds hv
  cases b with
  | true => exact hyes
  | false => exact hno

/-! ## Maps -/

/-- A map whose keys are values that can be keys. -/
theorem safe_mapOf {parts : List (Suspended Id × Suspended Id)} (entries : List (MapKey × Value))
    (hkeys : ∀ p ∈ parts, Safe (p.1 ()).run ∧
      Yields (fun v => v.toKey?.isSome = true) (p.1 ()).run)
    (hvalues : ∀ p ∈ parts, Safe (p.2 ()).run ∧ Yields (fun _ => True) (p.2 ()).run) :
    Safe (mapOf entries parts).run := by
  induction parts generalizing entries with
  | nil => exact .ok _
  | cons part rest ih =>
    obtain ⟨k, v⟩ := part
    obtain ⟨⟨hk, hyk⟩, hkeys⟩ := List.forall_mem_cons.mp hkeys
    obtain ⟨⟨hv, hyv⟩, hvalues⟩ := List.forall_mem_cons.mp hvalues
    unfold mapOf
    refine hk.bind hyk fun key hkey => hv.bind hyv fun value _ => ?_
    -- Every key is one that maps may have, so only a repeated key is refused.
    obtain ⟨known, hknown⟩ := Option.isSome_iff_exists.mp hkey
    simp only [hknown]
    split
    · exact Safe.error (α := Value) rfl
    · exact ih _ hkeys hvalues

/-! ## Loops -/

/-- A truth value is one of the two. -/
theorem safe_truth (kind : Loop) {v : Value} (h : Ty.bool.holds v = true) :
    Safe (truth (m := Id) kind v).run := by
  obtain ⟨b, rfl⟩ := Ty.eq_bool_of_holds h
  exact .ok b

variable {body : Value → Evaluation Id Value} {items : List Value} {bodyType : Ty}

/-- The results of a body. -/
theorem safe_collect (hbody : ∀ v ∈ items, Safe (body v).run)
    (hy : ∀ v ∈ items, Yields (fun r => bodyType.holds r = true) (body v).run) :
    Safe (collect body items).run := by
  induction items with
  | nil => exact .ok _
  | cons v rest ih =>
    obtain ⟨hfirst, hbody⟩ := List.forall_mem_cons.mp hbody
    obtain ⟨hyfirst, hy⟩ := List.forall_mem_cons.mp hy
    unfold collect
    refine hfirst.bind hyfirst fun result _ => ?_
    exact (ih hbody hy).bind (yields_collect hy) fun results _ => .ok _

/-- The items of which a body holds that gives truth values. -/
theorem safe_keep (kind : Loop) (hbody : ∀ v ∈ items, Safe (body v).run)
    (hy : ∀ v ∈ items, Yields (fun r => Ty.bool.holds r = true) (body v).run) :
    Safe (keep kind body items).run := by
  induction items with
  | nil => exact .ok _
  | cons v rest ih =>
    obtain ⟨hfirst, hbody⟩ := List.forall_mem_cons.mp hbody
    obtain ⟨hyfirst, hy⟩ := List.forall_mem_cons.mp hy
    have hkept := yields_keep kind fun w hw => (hy w hw).of_anything
    unfold keep
    refine hfirst.bind hyfirst fun result hresult => ?_
    refine (safe_truth kind hresult).bind (yields_truth kind result) fun held _ => ?_
    refine (ih hbody hy).bind hkept fun kept _ => ?_
    exact .ok _

/-- A search with a body that gives truth values; the error that it puts off is one of the body. -/
theorem safe_search (kind : Loop) (deciding : Bool) {deferred : Option EvalError}
    (hbody : ∀ v ∈ items, Safe (body v).run)
    (hy : ∀ v ∈ items, Yields (fun r => Ty.bool.holds r = true) (body v).run)
    (hdeferred : ∀ e ∈ deferred, e.isValueFault = true) :
    Safe (search kind deciding body deferred items).run := by
  induction items generalizing deferred with
  | nil =>
    unfold search
    cases deferred with
    | none => exact .ok _
    | some e => exact Safe.error (α := Value) (hdeferred e rfl)
  | cons v rest ih =>
    obtain ⟨hfirst, hbody⟩ := List.forall_mem_cons.mp hbody
    obtain ⟨hyfirst, hy⟩ := List.forall_mem_cons.mp hy
    have hout : Yields (fun r => Safe r ∧ Yields (fun w => Ty.bool.holds w = true) r)
        (outcome (body v)).run := .ok ⟨hfirst, hyfirst⟩
    unfold search
    refine (safe_outcome _).bind hout fun r hr => ?_
    split
    · exact hr.1
    · -- Of the errors put off only the first is kept.
      next error _ =>
      refine ih hbody hy fun e he => ?_
      cases deferred with
      | none =>
        cases he
        exact hr.1 _ rfl
      | some first =>
        cases he
        exact hdeferred first rfl
    · next result =>
      -- The body gave a truth value, so the search takes it.
      have hresult : Ty.bool.holds result = true := by
        cases hr.2 with
        | ok h => exact h
      refine (safe_truth kind hresult).bind (yields_truth kind result) fun held _ => ?_
      split
      · exact .ok _
      · exact ih hbody hy hdeferred

/-- A loop over items whose body gives truth values where the loop needs them. -/
theorem safe_loop (kind : Loop) (hbody : ∀ v ∈ items, Safe (body v).run)
    (hy : ∀ v ∈ items, Yields (fun r => bodyType.holds r = true) (body v).run)
    (hbool : kind.isPredicate = true → bodyType = .bool) : Safe (loop kind body items).run := by
  cases kind with
  | all =>
    -- A predicate has to give truth values.
    cases hbool rfl
    exact safe_search .all false hbody hy fun e he => absurd he (Option.not_mem_none e)
  | any =>
    cases hbool rfl
    exact safe_search .any true hbody hy fun e he => absurd he (Option.not_mem_none e)
  | one =>
    cases hbool rfl
    have hkept := yields_keep .one fun w hw => (hy w hw).of_anything
    exact (safe_keep .one hbody hy).bind hkept fun kept _ => .ok _
  | map => exact (safe_collect hbody hy).bind (yields_collect hy) fun results _ => .ok _
  | filter =>
    cases hbool rfl
    have hkept := yields_keep .filter fun w hw => (hy w hw).of_anything
    exact (safe_keep .filter hbody hy).bind hkept fun kept _ => .ok _

end Evaluation

end CelShell
