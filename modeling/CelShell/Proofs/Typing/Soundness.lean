import CelShell.Proofs.Typing.Call

/-!
# Type soundness

A checked expression gives only values of its type and finds every variable.
`Inferred.bind_eq_pure_iff` takes the checker apart at its steps: a tree is typed without an error
exactly if its parts are. The induction `Expr.yields_evaluate` goes over the tree with both walks
side by side; what a node makes of its parts is the business of the lemmas on evaluations and on
calls. `Expr.check_sound` states the result for whole expressions.
-/

namespace CelShell

namespace Inferred

variable {α β : Type} {ty : Ty} {fault : TypeFault} {span : Span}

/-- Two steps give a type without an error exactly if each of them does. -/
theorem bind_eq_pure_iff {first : Inferred α} {next : α → Inferred β} {b : β} :
    first >>= next = pure b ↔ ∃ a, first = pure a ∧ next a = pure b := by
  obtain ⟨value, errors⟩ := first
  show (⟨(next value).value, errors ++ (next value).errors⟩ : Inferred β) = ⟨b, []⟩ ↔
    ∃ a, (⟨value, errors⟩ : Inferred α) = ⟨a, []⟩ ∧ next a = ⟨b, []⟩
  constructor
  · intro h
    obtain ⟨hvalue, herrors⟩ := Inferred.mk.inj h
    -- The errors of both steps stand in one list, which is empty.
    obtain ⟨hfirst, hnext⟩ := List.append_eq_nil_iff.mp herrors
    refine ⟨value, by rw [hfirst], ?_⟩
    rw [← hvalue, ← hnext]
  · rintro ⟨a, hfirst, hnext⟩
    obtain ⟨rfl, rfl⟩ := Inferred.mk.inj hfirst
    rw [hnext, List.nil_append]

/-- A type that was given is that type. -/
theorem pure_inj {a b : α} (h : (pure a : Inferred α) = pure b) : a = b := (Inferred.mk.inj h).1

/-- A reported error is not forgotten. -/
theorem report_ne_pure : report fault span ≠ pure () := fun h => nomatch (Inferred.mk.inj h).2

/-- A part at fault is not typed without an error. -/
theorem fail_ne_pure : fail fault span ≠ pure ty := fun h => nomatch (Inferred.mk.inj h).2

/-- A type that may be missing is not. -/
theorem ofOption_eq_pure {result : Option Ty} (h : ofOption result fault span = pure ty) :
    result = some ty := by
  cases result with
  | none => exact absurd h fail_ne_pure
  | some found => rw [pure_inj h]

/-- There is a type, and no error. -/
theorem ofExcept_eq_pure {result : Except TypeFault Ty} (h : ofExcept result span = pure ty) :
    result = .ok ty := by
  cases result with
  | error fault => exact absurd h fail_ne_pure
  | ok found => rw [pure_inj h]

end Inferred

/-! ## Scopes -/

/-- The variables of a scope have values of their types. -/
def ScopeHolds (types : Table String Ty) (values : Table String Value) : Prop :=
  ∀ name, match types.get? name with
    | some ty => ∃ v, values.get? name = some v ∧ ty.holds v = true
    | none => values.get? name = none

namespace ScopeHolds

variable {types : Table String Ty} {values : Table String Value}

/-- No variables have no values. -/
theorem empty : ScopeHolds [] [] := fun _ => rfl

/-- One more variable with a value of its type. -/
theorem cons (h : ScopeHolds types values) (var : String) {ty : Ty} {v : Value}
    (hv : ty.holds v = true) : ScopeHolds ((var, ty) :: types) ((var, v) :: values) := by
  intro name
  by_cases heq : var = name
  · have htype : Table.get? ((var, ty) :: types) name = some ty := if_pos heq
    have hvalue : Table.get? ((var, v) :: values) name = some v := if_pos heq
    rw [htype, hvalue]
    exact ⟨v, rfl, hv⟩
  · -- Any other name is looked up in the scope around.
    have htypes : Table.get? ((var, ty) :: types) name = types.get? name := if_neg heq
    have hvalues : Table.get? ((var, v) :: values) name = values.get? name := if_neg heq
    rw [htypes, hvalues]
    exact h name

end ScopeHolds

/-- Each of the second list is related to one of the first. -/
theorem exists_mem_of_forall₂ {R : α → β → Prop} {as : List α} {bs : List β}
    (h : List.Forall₂ R as bs) : ∀ b ∈ bs, ∃ a ∈ as, R a b := by
  induction h with
  | nil => exact fun b hb => absurd hb List.not_mem_nil
  | cons hfirst _ ih =>
    intro b hb
    rcases List.mem_cons.mp hb with rfl | hb
    · exact ⟨_, List.mem_cons_self, hfirst⟩
    · obtain ⟨a, ha, hR⟩ := ih b hb
      exact ⟨a, List.mem_cons_of_mem _ ha, hR⟩

/-! ## Calls -/

/-- Evaluations yield values of types, one by one. -/
abbrev YieldsAll (types : List Ty) (parts : List (Suspended Id)) : Prop :=
  List.Forall₂ (fun t e => Yields (fun v => Ty.holds t v = true) (e ()).run) types parts

/-- A connective that has a type yields values of the type. -/
theorem yields_connective_call {declared : Table String Ty} {function : String} {op : BinaryOp}
    {types : List Ty} {left right : Suspended Id} {ty : Ty} (hop : op = .and ∨ op = .or)
    (hfunction : BinaryOp.ofFunction? function = some op)
    (h : Declarations.callType ⟨Declarations.standardFunctions, declared⟩ function types false =
      .ok ty) (hparts : YieldsAll types [left, right]) (absorbing : Bool) :
    Yields (fun v => ty.holds v = true)
      (Evaluation.connective function absorbing left right).run := by
  -- The name is that of the connective, whose overloads are known.
  have hname : function = op.function := by
    unfold BinaryOp.ofFunction? at hfunction
    have hfound := List.find?_some hfunction
    exact (beq_iff_eq.mp hfound).symm
  rw [hname] at h
  match types, hparts with
  | [_, _], .cons hleft (.cons hright .nil) =>
    have hbool := Evaluation.yields_connective function absorbing hleft.of_anything
      hright.of_anything
    exact hbool.mono fun v hv => Declarations.callType_connective hop h hv

/-- A call that has a type yields values of the type, whether it gets values or evaluations. -/
theorem yields_call {declared : Table String Ty} {values : Table String Value} {function : String}
    {types : List Ty} {parts : List (Suspended Id)} {ty : Ty}
    (h : Declarations.callType ⟨Declarations.standardFunctions, declared⟩ function types false =
      .ok ty) (hparts : YieldsAll types parts) :
    Yields (fun v => ty.holds v = true)
      (Evaluation.call function ((Bindings.interface [] values).call function) parts).run := by
  -- Where nothing is lazy the values of all arguments come first.
  have hstrict : Yields (fun v => ty.holds v = true)
      (do (Bindings.interface [] values).call function (← Evaluation.all parts) :
        Evaluation Id Value).run :=
    (Evaluation.yields_all hparts).bind fun args hargs => Declarations.callType_yields h hargs
  unfold Evaluation.call
  split
  · next left right hop => exact yields_connective_call (Or.inl rfl) hop h hparts false
  · next left right hop => exact yields_connective_call (Or.inr rfl) hop h hparts true
  · next condition yes no hop =>
    split
    · next hconditional =>
      rw [hconditional] at h
      match types, hparts with
      | [a, b, c], .cons ha (.cons hb (.cons hc .nil)) =>
        rw [Declarations.callType_conditional h]
        -- Either branch gives a value of its own type, so of the join of both.
        have hyes := hb.mono fun v hv => Ty.holds_join (b := c) (Or.inl hv)
        have hno := hc.mono fun v hv => Ty.holds_join (a := b) (Or.inr hv)
        exact Evaluation.yields_conditional ha.of_anything hyes hno
    · exact hstrict
  · exact hstrict

/-! ## Expressions -/

namespace Expr

open Inferred

variable {declared : Table String Ty} {values : Table String Value}

/-- Whether every declared variable has a value of its type. -/
def Assigned (declared : Table String Ty) (values : Table String Value) : Prop :=
  ∀ name ty, declared.get? name = some ty →
    ∃ v, values.get? name = some v ∧ ty.holds v = true

/-- A variable that is typed without an error has a value of its type. -/
theorem exists_value (hvalues : Assigned declared values) {types : Table String Ty}
    {scope : Table String Value} (hscope : ScopeHolds types scope) {m : Mark} {name : String}
    {ty : Ty}
    (h : (ident m name : Tree).infer ⟨Declarations.standardFunctions, declared⟩ types = pure ty) :
    ∃ v, (scope.get? name).or ((Bindings.interface [] values).values.get? name) = some v ∧
      ty.holds v = true := by
  rw [infer] at h
  have hname := hscope name
  split at h
  · next t ht =>
    rw [ht] at hname
    obtain ⟨v, hv, hholds⟩ := hname
    rw [hv, ← pure_inj h]
    exact ⟨v, rfl, hholds⟩
  · next ht =>
    -- No loop has the variable, so it is one of those that were declared.
    rw [ht] at hname
    rw [hname, Option.none_or]
    exact hvalues name ty (ofOption_eq_pure h)

/-- A field or a test for it is of the type that the checker gives. -/
theorem yields_selected {operandType ty : Ty} {field : String} (testOnly : Bool) {span : Span}
    {v : Value}
    (h : (match operandType.field? with
      | some fieldType => pure (if testOnly then Ty.bool else fieldType)
      | none => fail (.noFields operandType) span) = pure ty)
    (hv : operandType.holds v = true) :
    Yields (fun r => ty.holds r = true)
      (if testOnly then v.hasField field else v.field field) := by
  split at h
  · next fieldType hfield =>
    rw [← pure_inj h]
    cases testOnly with
    | true => exact Value.yields_hasField field v
    | false => exact Value.yields_field field hfield hv
  · exact absurd h fail_ne_pure

mutual

/-- A tree that is typed without an error yields values of its type. -/
theorem yields_evaluate (hvalues : Assigned declared values) {types : Table String Ty}
    {scope : Table String Value} (hscope : ScopeHolds types scope) :
    ∀ (e : Tree) {ty : Ty},
      e.infer ⟨Declarations.standardFunctions, declared⟩ types = pure ty →
        Yields (fun v => ty.holds v = true)
          (e.evaluate (Bindings.interface [] values) scope).run
  | literal _ value, ty, h => by
    rw [infer] at h
    rw [← pure_inj h, evaluate]
    exact .ok (Ty.holds_ofLiteral value)
  | ident _ name, ty, h => by
    obtain ⟨v, hv, hholds⟩ := exists_value hvalues hscope h
    rw [evaluate, hv]
    exact .ok hholds
  | select m operand field testOnly, ty, h => by
    rw [infer, bind_eq_pure_iff] at h
    obtain ⟨operandType, hoperand, h⟩ := h
    rw [evaluate]
    refine (yields_evaluate hvalues hscope operand hoperand).bind fun v hv => ?_
    exact Evaluation.yields_ended (yields_selected testOnly h hv)
  | call m function args, ty, h => by
    rw [infer, bind_eq_pure_iff] at h
    obtain ⟨argTypes, hargs, h⟩ := h
    rw [evaluate]
    exact yields_call (ofExcept_eq_pure h) (yieldsAll_suspended hvalues hscope args hargs)
  | invoke m target function args, ty, h => by
    rw [infer, bind_eq_pure_iff] at h
    obtain ⟨targetType, htarget, h⟩ := h
    rw [bind_eq_pure_iff] at h
    obtain ⟨argTypes, hargs, h⟩ := h
    rw [evaluate]
    refine (yields_evaluate hvalues hscope target htarget).bind fun v hv => ?_
    have hall := Evaluation.yields_all (yieldsAll_suspended hvalues hscope args hargs)
    refine hall.bind fun vs hvs => ?_
    exact Declarations.callType_yields (ofExcept_eq_pure h) (.cons hv hvs)
  | list m elements, ty, h => by
    rw [infer, bind_eq_pure_iff] at h
    obtain ⟨elementTypes, helements, h⟩ := h
    rw [evaluate, ← pure_inj h]
    have hall := Evaluation.yields_all (yieldsAll_suspended hvalues hscope elements helements)
    refine hall.bind fun vs hvs => .ok (Ty.holds_list.mpr fun v hv => ?_)
    obtain ⟨t, ht, hholds⟩ := exists_mem_of_forall₂ hvs v hv
    exact Ty.holds_joinAll ht hholds
  | map m entries, ty, h => by
    rw [infer, bind_eq_pure_iff] at h
    obtain ⟨entryTypes, hentries, h⟩ := h
    rw [evaluate, ← pure_inj h]
    have hall := yieldsAll_suspendedEntries hvalues hscope entries hentries
    refine Evaluation.yields_mapOf (fun part hpart => ?_)
      (Ty.holds_map.mpr fun e he => absurd he List.not_mem_nil)
    obtain ⟨t, ht, hkey, hvalue⟩ := exists_mem_of_forall₂ hall part hpart
    exact ⟨hkey.mono fun v hv => Ty.holds_joinAll (List.mem_map_of_mem ht) hv,
      hvalue.mono fun v hv => Ty.holds_joinAll (List.mem_map_of_mem ht) hv⟩
  | comprehension m loop var range body, ty, h => by
    rw [infer, bind_eq_pure_iff] at h
    obtain ⟨rangeType, hrange, h⟩ := h
    rw [bind_eq_pure_iff] at h
    obtain ⟨varType, hvar, h⟩ := h
    rw [bind_eq_pure_iff] at h
    obtain ⟨bodyType, hbody, h⟩ := h
    -- A body that is no truth value where one is needed is reported, so there is none.
    have hty : loop.resultType varType bodyType = ty := by
      split at h
      · rw [bind_eq_pure_iff] at h
        obtain ⟨_, hreport, -⟩ := h
        exact absurd hreport report_ne_pure
      · exact pure_inj h
    rw [evaluate, ← hty]
    refine (yields_evaluate hvalues hscope range hrange).bind fun v hv => ?_
    split
    · exact Evaluation.yields_ended (.error nofun)
    · next items hitems =>
      -- The body is evaluated with the variable at an item, which is of the type of the variable.
      have hall := Value.holds_of_items? (ofOption_eq_pure hvar) hv hitems
      exact Evaluation.yields_loop loop hall fun item hitem =>
        yields_evaluate hvalues (hscope.cons var (hall item hitem)) body hbody

/-- Trees that are typed without an error yield values of their types. -/
theorem yieldsAll_suspended (hvalues : Assigned declared values) {types : Table String Ty}
    {scope : Table String Value} (hscope : ScopeHolds types scope) :
    ∀ (es : List Tree) {tys : List Ty},
      inferList ⟨Declarations.standardFunctions, declared⟩ types es = pure tys →
        YieldsAll tys (suspended (Bindings.interface [] values) scope es)
  | [], tys, h => by
    rw [inferList] at h
    rw [← pure_inj h, suspended]
    exact .nil
  | e :: rest, tys, h => by
    rw [inferList, bind_eq_pure_iff] at h
    obtain ⟨ty, he, h⟩ := h
    rw [bind_eq_pure_iff] at h
    obtain ⟨restTypes, hrest, h⟩ := h
    rw [← pure_inj h, suspended]
    exact .cons (yields_evaluate hvalues hscope e he)
      (yieldsAll_suspended hvalues hscope rest hrest)

/-- Keys and values that are typed without an error yield values of their types. -/
theorem yieldsAll_suspendedEntries (hvalues : Assigned declared values) {types : Table String Ty}
    {scope : Table String Value} (hscope : ScopeHolds types scope) :
    ∀ (es : List (Tree × Tree)) {tys : List (Ty × Ty)},
      inferEntries ⟨Declarations.standardFunctions, declared⟩ types es = pure tys →
        List.Forall₂ (fun t e => Yields (fun v => Ty.holds t.1 v = true) (e.1 ()).run ∧
          Yields (fun v => Ty.holds t.2 v = true) (e.2 ()).run) tys
          (suspendedEntries (Bindings.interface [] values) scope es)
  | [], tys, h => by
    rw [inferEntries] at h
    rw [← pure_inj h, suspendedEntries]
    exact .nil
  | (k, v) :: rest, tys, h => by
    rw [inferEntries, bind_eq_pure_iff] at h
    obtain ⟨keyType, hk, h⟩ := h
    split at h
    · rw [bind_eq_pure_iff] at h
      -- A type that no key has was reported, so this was an error.
      obtain ⟨_, hreport, -⟩ := h
      exact absurd hreport report_ne_pure
    · rw [bind_eq_pure_iff] at h
      obtain ⟨valueType, hv, h⟩ := h
      rw [bind_eq_pure_iff] at h
      obtain ⟨restTypes, hrest, h⟩ := h
      rw [← pure_inj h, suspendedEntries]
      exact .cons ⟨yields_evaluate hvalues hscope k hk, yields_evaluate hvalues hscope v hv⟩
        (yieldsAll_suspendedEntries hvalues hscope rest hrest)

end

/-- An expression that is checked finds every variable, and its value, if it has one, is of its
type. -/
theorem check_sound (hvalues : Assigned declared values) (e : Tree) {ty : Ty}
    (h : e.check ⟨Declarations.standardFunctions, declared⟩ = .ok ty) :
    (∀ name, e.eval [] values [] ≠ .error (.noSuchAttribute name)) ∧
      ∀ v, e.eval [] values [] = .ok v → ty.holds v = true := by
  -- A check that succeeds is a tree that was typed without an error.
  have hinfer : e.infer ⟨Declarations.standardFunctions, declared⟩ [] = pure ty := by
    unfold check at h
    dsimp only at h
    split at h
    · next herrors =>
      rw [← Except.ok.inj h]
      exact congrArg (Inferred.mk _) (List.isEmpty_iff.mp herrors)
    · cases h
  have hyields : Yields (fun v => ty.holds v = true) (e.eval [] values []) :=
    yields_evaluate hvalues ScopeHolds.empty e hinfer
  constructor
  · intro name hname
    rw [hname] at hyields
    cases hyields with
    | error herror => exact herror name rfl
  · intro v hv
    rw [hv] at hyields
    cases hyields with
    | ok hholds => exact hholds

/-- A number is added to every element of a list of anything: of the overloads of addition only
the one for int accepts an element and the number, so the result is a list of ints. -/
theorem check_sound_additions :
    let m : Mark := default
    let e : Tree := .comprehension m .map "x" (.ident m "xs")
      (.call m BinaryOp.add.function [.ident m "x", .ident m "n"])
    let declared : Table String Ty := [("xs", .list .dyn), ("n", .int)]
    let values : Table String Value := [("xs", .list [.int 1, .int 2]), ("n", .int 3)]
    Assigned declared values ∧
      e.check ⟨Declarations.standardFunctions, declared⟩ = .ok (.list .int) ∧
      e.eval [] values [] = .ok (.list [.int 4, .int 5]) ∧
      (Ty.list .int).holds (.list [.int 4, .int 5]) = true := by
  intro m e declared values
  have hvalues : Assigned declared values := by
    intro name ty h
    unfold declared Table.get? at h
    split at h
    · next heq =>
      rw [← Option.some.inj h, ← heq]
      exact ⟨_, rfl, rfl⟩
    · unfold Table.get? at h
      split at h
      · next heq =>
        rw [← Option.some.inj h, ← heq]
        exact ⟨_, rfl, rfl⟩
      · cases h
  have hcheck : e.check ⟨Declarations.standardFunctions, declared⟩ = .ok (.list .int) := by
    decide +kernel
  have heval : e.eval [] values [] = .ok (.list [.int 4, .int 5]) := by
    rfl
  exact ⟨hvalues, hcheck, heval, (check_sound hvalues e hcheck).2 _ heval⟩

end Expr

end CelShell
