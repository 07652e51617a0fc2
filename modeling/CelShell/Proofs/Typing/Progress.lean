import CelShell.Proofs.Typing.CallSafety
import CelShell.Proofs.Typing.Soundness

/-!
# Precisely typed expressions do not go wrong

`Expr.occurrences` lists the parts of an expression with the scopes in which they stand. If the
checker finds a type without `dyn` for each of them, an evaluation fails only by the values it
meets. The induction over the tree goes along with that of type soundness, which says of what types
the values are; a call needs nothing more than that of its arguments, and the connectives, the
conditional and the loops need to know that they decide by truth values.
-/

namespace CelShell

/-! ## Calls -/

namespace Evaluation

variable {function : String} {parts : List (Suspended Id)}
  {apply : List Value → Evaluation Id Value}

/-- A function that is not lazy gets the values of all its arguments. -/
theorem call_of_not_lazy (h : Operator.isLazy function = false) :
    call function apply parts = (do apply (← all parts)) := by
  unfold Operator.isLazy at h
  simp only [Bool.or_eq_false_iff, beq_eq_false_iff_ne] at h
  -- The operator that was found has the name of the call, which is no lazy one.
  have hname : ∀ op, BinaryOp.ofFunction? function = some op → op.function = function := by
    intro op hop
    unfold BinaryOp.ofFunction? at hop
    have hfound := List.find?_some hop
    exact beq_iff_eq.mp hfound
  unfold call
  split
  · next hop => exact absurd (hname _ hop).symm h.1.1
  · next hop => exact absurd (hname _ hop).symm h.1.2
  · rw [if_neg h.2]
  · rfl

/-- A connective chooses among its operands. -/
theorem call_connective {op : BinaryOp} (hop : op = .and ∨ op = .or) (left right : Suspended Id) :
    ∃ absorbing, call op.function apply [left, right] =
      connective op.function absorbing left right := by
  rcases hop with rfl | rfl
  · have hname : BinaryOp.ofFunction? BinaryOp.and.function = some .and := by decide
    refine ⟨false, ?_⟩
    unfold call
    simp only [hname]
  · have hname : BinaryOp.ofFunction? BinaryOp.or.function = some .or := by decide
    refine ⟨true, ?_⟩
    unfold call
    simp only [hname]

/-- The conditional chooses among its branches. -/
theorem call_conditional (condition yes no : Suspended Id) :
    call Operator.conditional apply [condition, yes, no] = conditional condition yes no := by
  have hname : BinaryOp.ofFunction? Operator.conditional = none := by decide
  unfold call
  simp only [hname, if_true]

end Evaluation

/-- A call of precise types, whether it gets values or evaluations. -/
theorem safe_call {declared : Table String Ty} {values : Table String Value} {function : String}
    {types : List Ty} {parts : List (Suspended Id)} {ty : Ty}
    (h : Declarations.callType ⟨Declarations.standardFunctions, declared⟩ function types false =
      .ok ty) (hprecise : ∀ t ∈ types, t.isPrecise = true) (hparts : YieldsAll types parts)
    (hsafe : ∀ e ∈ parts, Safe (e ()).run) :
    Safe (Evaluation.call function ((Bindings.interface [] values).call function) parts).run := by
  -- The two connectives differ only in the value that decides them.
  have hconnective : ∀ op : BinaryOp, op = .and ∨ op = .or → function = op.function →
      Safe (Evaluation.call function ((Bindings.interface [] values).call function) parts).run := by
    rintro op hop rfl
    obtain rfl := Declarations.types_of_connective hop hprecise h
    match parts, hparts, hsafe with
    | [left, right], .cons hleft (.cons hright .nil), hsafe =>
      obtain ⟨absorbing, hcall⟩ := Evaluation.call_connective hop left right
      rw [hcall]
      exact Evaluation.safe_connective _ _ (hsafe left (by simp)) (hsafe right (by simp)) hleft
        hright
  by_cases hand : function = BinaryOp.and.function
  · exact hconnective .and (Or.inl rfl) hand
  by_cases hor : function = BinaryOp.or.function
  · exact hconnective .or (Or.inr rfl) hor
  by_cases hconditional : function = Operator.conditional
  · subst hconditional
    obtain ⟨b, c, rfl⟩ := Declarations.types_of_conditional hprecise h
    match parts, hparts, hsafe with
    | [condition, yes, no], .cons hcondition _, hsafe =>
      rw [Evaluation.call_conditional]
      exact Evaluation.safe_conditional (hsafe condition (by simp)) hcondition
        (hsafe yes (by simp)) (hsafe no (by simp))
  · -- What remains gets the values of all its arguments.
    have hlazy : Operator.isLazy function = false := by
      simp [Operator.isLazy, hand, hor, hconditional]
    rw [Evaluation.call_of_not_lazy hlazy]
    exact (Evaluation.safe_all hparts hsafe).bind (Evaluation.yields_all hparts) fun args hargs =>
      Declarations.callType_safe h hlazy hprecise hargs

/-! ## Expressions -/

namespace Expr

open Inferred

variable {declared : Table String Ty} {values : Table String Value}

mutual

/-- A tree and all below it, each with the loop variables that it can use. -/
def occurrences (d : Declarations) (scope : Table String Ty) :
    Tree → List (Table String Ty × Tree)
  | e@(ident _ _) | e@(literal _ _) => [(scope, e)]
  | e@(select _ operand _ _) => (scope, e) :: occurrences d scope operand
  | e@(call _ _ args) => (scope, e) :: occurrencesOfList d scope args
  | e@(invoke _ target _ args) =>
    (scope, e) :: (occurrences d scope target ++ occurrencesOfList d scope args)
  | e@(list _ elements) => (scope, e) :: occurrencesOfList d scope elements
  | e@(map _ entries) => (scope, e) :: occurrencesOfEntries d scope entries
  | e@(comprehension _ _ var range body) =>
    let varType := (range.infer d scope).value.item?.getD .dyn
    (scope, e) :: (occurrences d scope range ++ occurrences d ((var, varType) :: scope) body)

/-- The trees in a list of trees. -/
def occurrencesOfList (d : Declarations) (scope : Table String Ty) :
    List Tree → List (Table String Ty × Tree)
  | [] => []
  | e :: rest => occurrences d scope e ++ occurrencesOfList d scope rest

/-- The trees in a list of entries. -/
def occurrencesOfEntries (d : Declarations) (scope : Table String Ty) :
    List (Tree × Tree) → List (Table String Ty × Tree)
  | [] => []
  | (k, v) :: rest =>
    occurrences d scope k ++ occurrences d scope v ++ occurrencesOfEntries d scope rest

end

/-- Each of some trees is found to have a type without `dyn`. -/
def Precise (d : Declarations) (parts : List (Table String Ty × Tree)) : Prop :=
  ∀ o ∈ parts, (o.2.infer d o.1).value.isPrecise = true

namespace Precise

variable {d : Declarations} {parts others : List (Table String Ty × Tree)}
  {scope : Table String Ty} {e : Tree} {ty : Ty}

/-- The first of some trees and the others are precise. -/
theorem cons_iff {o : Table String Ty × Tree} :
    Precise d (o :: parts) ↔ (o.2.infer d o.1).value.isPrecise = true ∧ Precise d parts :=
  List.forall_mem_cons

/-- Some trees and others are precise. -/
theorem append_iff : Precise d (parts ++ others) ↔ Precise d parts ∧ Precise d others :=
  List.forall_mem_append

/-- The type of a tree, if it and all below it are precise. -/
theorem of_infer (h : Precise d (e.occurrences d scope)) (hinfer : e.infer d scope = pure ty) :
    ty.isPrecise = true := by
  have hself : (scope, e) ∈ e.occurrences d scope := by
    cases e <;> simp [occurrences]
  have hvalue := h _ hself
  rw [hinfer] at hvalue
  exact hvalue

/-- The types of some trees. -/
theorem of_inferList {es : List Tree} {types : List Ty}
    (h : Precise d (occurrencesOfList d scope es)) (hinfer : inferList d scope es = pure types) :
    ∀ t ∈ types, t.isPrecise = true := by
  induction es generalizing types with
  | nil =>
    rw [inferList] at hinfer
    rw [← pure_inj hinfer]
    exact fun _ ht => absurd ht List.not_mem_nil
  | cons e rest ih =>
    rw [occurrencesOfList, append_iff] at h
    rw [inferList, bind_eq_pure_iff] at hinfer
    obtain ⟨ty, he, hinfer⟩ := hinfer
    rw [bind_eq_pure_iff] at hinfer
    obtain ⟨restTypes, hrest, hinfer⟩ := hinfer
    rw [← pure_inj hinfer]
    exact List.forall_mem_cons.mpr ⟨h.1.of_infer he, ih h.2 hrest⟩

end Precise

/-- A field, or a test for it, of an operand of a precise type with fields. -/
theorem safe_selected {operandType : Ty} (field : String) (testOnly : Bool) {v : Value}
    (hfield : operandType.field?.isSome = true) (hprecise : operandType.isPrecise = true)
    (hv : operandType.holds v = true) :
    Safe (if testOnly then v.hasField field else v.field field) := by
  cases operandType with
  | map key value =>
    obtain ⟨entries, rfl, -⟩ := Ty.eq_map_of_holds hv
    cases testOnly with
    | true => exact .ok _
    | false => exact Value.safe_field field entries
  | dyn => cases hprecise
  | _ => cases hfield

/-- The values of a precise type over which a loop can run have items. -/
theorem isSome_items? {rangeType varType : Ty} {v : Value}
    (hitem : rangeType.item? = some varType) (hprecise : rangeType.isPrecise = true)
    (hv : rangeType.holds v = true) : v.items?.isSome = true := by
  cases rangeType with
  | list element =>
    obtain ⟨items, rfl, -⟩ := Ty.eq_list_of_holds hv
    rfl
  | map key value =>
    obtain ⟨entries, rfl, -⟩ := Ty.eq_map_of_holds hv
    rfl
  | dyn => cases hprecise
  | _ => cases hitem

mutual

/-- A tree that is typed without an error and without `dyn` is safe. -/
theorem safe_evaluate (hvalues : Assigned declared values) {types : Table String Ty}
    {scope : Table String Value} (hscope : ScopeHolds types scope) :
    ∀ (e : Tree) {ty : Ty},
      e.infer ⟨Declarations.standardFunctions, declared⟩ types = pure ty →
      Precise ⟨Declarations.standardFunctions, declared⟩
        (e.occurrences ⟨Declarations.standardFunctions, declared⟩ types) →
        Safe (e.evaluate (Bindings.interface [] values) scope).run
  | literal _ value, _, _, _ => by
    rw [evaluate]
    exact .ok _
  | ident _ name, ty, h, _ => by
    obtain ⟨v, hv, -⟩ := exists_value hvalues hscope h
    rw [evaluate, hv]
    exact .ok v
  | select m operand field testOnly, ty, h, hp => by
    rw [infer, bind_eq_pure_iff] at h
    obtain ⟨operandType, hoperand, h⟩ := h
    rw [occurrences, Precise.cons_iff] at hp
    have hfield : operandType.field?.isSome = true := by
      split at h
      · next hsome => rw [hsome]; rfl
      · exact absurd h fail_ne_pure
    rw [evaluate]
    refine (safe_evaluate hvalues hscope operand hoperand hp.2).bind
      (yields_evaluate hvalues hscope operand hoperand) fun v hv => ?_
    exact safe_selected field testOnly hfield (hp.2.of_infer hoperand) hv
  | call m function args, ty, h, hp => by
    rw [infer, bind_eq_pure_iff] at h
    obtain ⟨argTypes, hargs, h⟩ := h
    rw [occurrences, Precise.cons_iff] at hp
    rw [evaluate]
    exact safe_call (ofExcept_eq_pure h) (hp.2.of_inferList hargs)
      (yieldsAll_suspended hvalues hscope args hargs)
      (safe_suspended hvalues hscope args hargs hp.2)
  | invoke m target function args, ty, h, hp => by
    rw [infer, bind_eq_pure_iff] at h
    obtain ⟨targetType, htarget, h⟩ := h
    rw [bind_eq_pure_iff] at h
    obtain ⟨argTypes, hargs, h⟩ := h
    have hcall := ofExcept_eq_pure h
    rw [occurrences, Precise.cons_iff, Precise.append_iff] at hp
    obtain ⟨-, hptarget, hpargs⟩ := hp
    have hprecise : ∀ t ∈ targetType :: argTypes, t.isPrecise = true :=
      List.forall_mem_cons.mpr ⟨hptarget.of_infer htarget, hpargs.of_inferList hargs⟩
    have hy := yieldsAll_suspended hvalues hscope args hargs
    rw [evaluate]
    refine (safe_evaluate hvalues hscope target htarget hptarget).bind
      (yields_evaluate hvalues hscope target htarget) fun v hv => ?_
    refine (Evaluation.safe_all hy (safe_suspended hvalues hscope args hargs hpargs)).bind
      (Evaluation.yields_all hy) fun vs hvs => ?_
    exact Declarations.callType_safe hcall (Declarations.isLazy_of_member hcall) hprecise
      (.cons hv hvs)
  | list m elements, ty, h, hp => by
    rw [infer, bind_eq_pure_iff] at h
    obtain ⟨elementTypes, helements, h⟩ := h
    rw [occurrences, Precise.cons_iff] at hp
    have hy := yieldsAll_suspended hvalues hscope elements helements
    rw [evaluate]
    exact (Evaluation.safe_all hy (safe_suspended hvalues hscope elements helements hp.2)).bind
      (Evaluation.yields_all hy) fun vs _ => .ok _
  | map m entries, ty, h, hp => by
    rw [infer, bind_eq_pure_iff] at h
    obtain ⟨entryTypes, hentries, h⟩ := h
    rw [occurrences, Precise.cons_iff] at hp
    have hparts := safe_suspendedEntries hvalues hscope entries hentries hp.2
    rw [evaluate]
    exact Evaluation.safe_mapOf [] (fun p hpart => (hparts p hpart).1)
      fun p hpart => (hparts p hpart).2
  | comprehension m loop var range body, ty, h, hp => by
    rw [infer, bind_eq_pure_iff] at h
    obtain ⟨rangeType, hrange, h⟩ := h
    rw [bind_eq_pure_iff] at h
    obtain ⟨varType, hvar, h⟩ := h
    rw [bind_eq_pure_iff] at h
    obtain ⟨bodyType, hbody, h⟩ := h
    have hitem := ofOption_eq_pure hvar
    rw [occurrences, Precise.cons_iff, Precise.append_iff, hrange] at hp
    obtain ⟨-, hprange, hpbody⟩ := hp
    have hvarType : (pure rangeType : Inferred Ty).value.item?.getD .dyn = varType := by
      rw [show (pure rangeType : Inferred Ty).value = rangeType from rfl, hitem]
      rfl
    rw [hvarType] at hpbody
    -- The body is typed as a truth value where the loop needs one.
    have hbool : loop.isPredicate = true → bodyType = .bool := by
      intro hpredicate
      split at h
      · rw [bind_eq_pure_iff] at h
        obtain ⟨_, hreport, -⟩ := h
        exact absurd hreport report_ne_pure
      · next haccepts =>
        rw [hpredicate, Bool.true_and, Bool.not_eq_true, Bool.not_eq_false'] at haccepts
        exact Ty.eq_of_accepts_bool (hpbody.of_infer hbody) haccepts
    rw [evaluate]
    refine (safe_evaluate hvalues hscope range hrange hprange).bind
      (yields_evaluate hvalues hscope range hrange) fun v hv => ?_
    obtain ⟨items, hitems⟩ :=
      Option.isSome_iff_exists.mp (isSome_items? hitem (hprange.of_infer hrange) hv)
    have hall := Value.holds_of_items? hitem hv hitems
    rw [hitems]
    exact Evaluation.safe_loop loop
      (fun item hmem => safe_evaluate hvalues (hscope.cons var (hall item hmem)) body hbody hpbody)
      (fun item hmem => yields_evaluate hvalues (hscope.cons var (hall item hmem)) body hbody)
      hbool

/-- Trees that are typed without an error and without `dyn` are safe. -/
theorem safe_suspended (hvalues : Assigned declared values) {types : Table String Ty}
    {scope : Table String Value} (hscope : ScopeHolds types scope) :
    ∀ (es : List Tree) {tys : List Ty},
      inferList ⟨Declarations.standardFunctions, declared⟩ types es = pure tys →
      Precise ⟨Declarations.standardFunctions, declared⟩
        (occurrencesOfList ⟨Declarations.standardFunctions, declared⟩ types es) →
        ∀ part ∈ suspended (Bindings.interface [] values) scope es, Safe (part ()).run
  | [], _, _, _ => by
    rw [suspended]
    exact fun _ hpart => absurd hpart List.not_mem_nil
  | e :: rest, tys, h, hp => by
    rw [inferList, bind_eq_pure_iff] at h
    obtain ⟨ty, he, h⟩ := h
    rw [bind_eq_pure_iff] at h
    obtain ⟨restTypes, hrest, -⟩ := h
    rw [occurrencesOfList, Precise.append_iff] at hp
    rw [suspended]
    exact List.forall_mem_cons.mpr ⟨safe_evaluate hvalues hscope e he hp.1,
      safe_suspended hvalues hscope rest hrest hp.2⟩

/-- Keys and values that are typed without an error and without `dyn` are safe, and the keys give
values that can be keys. -/
theorem safe_suspendedEntries (hvalues : Assigned declared values) {types : Table String Ty}
    {scope : Table String Value} (hscope : ScopeHolds types scope) :
    ∀ (es : List (Tree × Tree)) {tys : List (Ty × Ty)},
      inferEntries ⟨Declarations.standardFunctions, declared⟩ types es = pure tys →
      Precise ⟨Declarations.standardFunctions, declared⟩
        (occurrencesOfEntries ⟨Declarations.standardFunctions, declared⟩ types es) →
        ∀ part ∈ suspendedEntries (Bindings.interface [] values) scope es,
          (Safe (part.1 ()).run ∧ Yields (fun v => v.toKey?.isSome = true) (part.1 ()).run) ∧
            (Safe (part.2 ()).run ∧ Yields (fun _ => True) (part.2 ()).run)
  | [], _, _, _ => by
    rw [suspendedEntries]
    exact fun _ hpart => absurd hpart List.not_mem_nil
  | (k, v) :: rest, tys, h, hp => by
    rw [inferEntries, bind_eq_pure_iff] at h
    obtain ⟨keyType, hk, h⟩ := h
    rw [occurrencesOfEntries, Precise.append_iff, Precise.append_iff] at hp
    obtain ⟨⟨hpk, hpv⟩, hprest⟩ := hp
    split at h
    · rw [bind_eq_pure_iff] at h
      obtain ⟨_, hreport, -⟩ := h
      exact absurd hreport report_ne_pure
    · next hkey =>
      rw [Bool.not_eq_true, Bool.not_eq_false'] at hkey
      rw [bind_eq_pure_iff] at h
      obtain ⟨valueType, hv, h⟩ := h
      rw [bind_eq_pure_iff] at h
      obtain ⟨restTypes, hrest, -⟩ := h
      rw [suspendedEntries]
      -- The key gives a value of a precise type of keys, so it can be a key.
      have hyk := (yields_evaluate hvalues hscope k hk).mono fun w hw =>
        Ty.isSome_toKey? (hpk.of_infer hk) hkey hw
      refine List.forall_mem_cons.mpr ⟨⟨⟨safe_evaluate hvalues hscope k hk hpk, hyk⟩,
        safe_evaluate hvalues hscope v hv hpv, (yields_evaluate hvalues hscope v hv).of_anything⟩,
        safe_suspendedEntries hvalues hscope rest hrest hprest⟩

end

/-- A check that succeeds is a tree that is typed without an error. -/
theorem check_eq_ok_iff {d : Declarations} {e : Tree} {ty : Ty} :
    e.check d = .ok ty ↔ e.infer d [] = pure ty := by
  unfold check
  dsimp only
  -- A check succeeds when there are no errors, with the type that was inferred.
  split
  · next herrors =>
    constructor
    · intro h
      rw [← Except.ok.inj h]
      exact congrArg (Inferred.mk _) (List.isEmpty_iff.mp herrors)
    · intro h
      rw [h]
      rfl
  · next herrors =>
    constructor
    · exact nofun
    · intro h
      rw [h] at herrors
      exact absurd rfl herrors

/-- A checked expression for none of whose parts the checker finds a type with `dyn` fails, if it
fails, by the values that it meets. -/
theorem check_progress (hvalues : Assigned declared values) (e : Tree) {ty : Ty}
    (h : e.check ⟨Declarations.standardFunctions, declared⟩ = .ok ty)
    (hprecise : Precise ⟨Declarations.standardFunctions, declared⟩
      (e.occurrences ⟨Declarations.standardFunctions, declared⟩ [])) :
    ∀ error, e.eval [] values [] = .error error → error.isValueFault = true :=
  safe_evaluate hvalues ScopeHolds.empty e (check_eq_ok_iff.mp h) hprecise

/-- Variables that have values of their types one by one. -/
theorem assigned_of_forall
    (h : ∀ p ∈ declared, ∃ v, values.get? p.1 = some v ∧ p.2.holds v = true) :
    Assigned declared values := by
  intro name ty hget
  induction declared with
  | nil => cases hget
  | cons first rest ih =>
    obtain ⟨hfirst, hrest⟩ := List.forall_mem_cons.mp h
    unfold Table.get? at hget
    split at hget
    · next heq =>
      rw [← Option.some.inj hget, ← heq]
      exact hfirst
    · exact ih hrest hget

/-- A list of quotients by a variable that is zero: the division is what fails. -/
theorem check_progress_quotients :
    let m : Mark := default
    let e : Tree := .comprehension m .map "x" (.ident m "xs")
      (.call m BinaryOp.divide.function [.ident m "x", .ident m "n"])
    let declared : Table String Ty := [("xs", .list .int), ("n", .int)]
    let values : Table String Value := [("xs", .list [.int 1, .int 2]), ("n", .int 0)]
    Assigned declared values ∧
      e.check ⟨Declarations.standardFunctions, declared⟩ = .ok (.list .int) ∧
      Precise ⟨Declarations.standardFunctions, declared⟩
        (e.occurrences ⟨Declarations.standardFunctions, declared⟩ []) ∧
      e.eval [] values [] = .error .divisionByZero ∧
      EvalError.divisionByZero.isValueFault = true := by
  intro m e declared values
  have hvalues : Assigned declared values :=
    assigned_of_forall (List.forall_mem_cons.mpr
      ⟨⟨_, rfl, rfl⟩, List.forall_mem_cons.mpr ⟨⟨_, rfl, rfl⟩, nofun⟩⟩)
  have hcheck : e.check ⟨Declarations.standardFunctions, declared⟩ = .ok (.list .int) := by
    decide +kernel
  have hprecise : Precise ⟨Declarations.standardFunctions, declared⟩
      (e.occurrences ⟨Declarations.standardFunctions, declared⟩ []) := by
    unfold Precise
    decide +kernel
  have heval : e.eval [] values [] = .error .divisionByZero := by
    rfl
  exact ⟨hvalues, hcheck, hprecise, heval, check_progress hvalues e hcheck hprecise _ heval⟩

end Expr

end CelShell
