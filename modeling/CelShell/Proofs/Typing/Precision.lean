import CelShell.Proofs.Typing.Progress
import CelShell.Proofs.Typing.Vaguer

/-!
# Losing precision

What becomes of a checked expression when less is known of its variables. `Loses` relates a type
that was found without an error to what is found in its place: a vaguer type, and no errors but
those of mixed sums. `Expr.infer_vaguer` goes through the tree with both scopes at once, and
`Expr.check_vaguer` is the result for whole expressions.
-/

namespace CelShell

/-! ## Tables of types -/

/-- Two tables with the same names, where each type of the second is vaguer. -/
def Ty.VaguerTable (types types' : Table String Ty) : Prop :=
  ∀ name, Option.Rel Ty.Vaguer (types.get? name) (types'.get? name)

namespace Ty.VaguerTable

variable {types types' : Table String Ty} {name : String} {ty ty' : Ty}

/-- A table is as vague as itself. -/
theorem refl (types : Table String Ty) : VaguerTable types types := by
  intro name
  cases types.get? name with
  | none => exact .none
  | some t => exact .some (.refl t)

/-- A name has a vaguer type. -/
theorem get? (h : VaguerTable types types') (hget : types.get? name = some ty) :
    ∃ ty', types'.get? name = some ty' ∧ Vaguer ty ty' := by
  have hname := h name
  rw [hget] at hname
  generalize types'.get? name = found at hname ⊢
  cases hname with
  | some hty => exact ⟨_, rfl, hty⟩

/-- A name that one of the tables does not have is not in the other. -/
theorem get?_none (h : VaguerTable types types') (hget : types.get? name = none) :
    types'.get? name = none := by
  have hname := h name
  rw [hget] at hname
  generalize types'.get? name = found at hname ⊢
  cases hname with
  | none => rfl

/-- One more name with a vaguer type. -/
theorem cons (h : VaguerTable types types') (name : String) (hty : Vaguer ty ty') :
    VaguerTable ((name, ty) :: types) ((name, ty') :: types') := by
  intro other
  unfold Table.get?
  split
  · exact .some hty
  · exact h other

end Ty.VaguerTable

/-! ## Expressions -/

/-- A result that is related to a type without errors, by errors of mixed sums at most. -/
structure Loses (R : α → β → Prop) (a : α) (result : Inferred β) : Prop where
  /-- The types. -/
  value : R a result.value
  /-- The errors. -/
  errors : ∀ error ∈ result.errors, error.fault.IsMixedSum

namespace Loses

variable {α β γ δ : Type} {R : α → β → Prop} {S : γ → δ → Prop} {a : α} {c : γ}

/-- A type without errors. -/
theorem pure {b : β} (h : R a b) : Loses R a (Pure.pure b) :=
  ⟨h, fun _ herror => absurd herror List.not_mem_nil⟩

/-- One step after the other. -/
theorem bind {result : Inferred β} {next : β → Inferred δ} (h : Loses R a result)
    (hnext : ∀ b, R a b → Loses S c (next b)) : Loses S c (result >>= next) := by
  obtain ⟨hvalue, herrors⟩ := hnext result.value h.value
  refine ⟨hvalue, fun error herror => ?_⟩
  rcases List.mem_append.mp (show error ∈ result.errors ++ (next result.value).errors from herror)
    with herror | herror
  · exact h.errors error herror
  · exact herrors error herror

/-- An error of a mixed sum, where any type is vaguer than what is found. -/
theorem fail {ty : Ty} {fault : TypeFault} (h : fault.IsMixedSum) (span : Span) :
    Loses Ty.Vaguer ty (Inferred.fail fault span) :=
  ⟨.dyn ty, fun _ herror => List.mem_singleton.mp herror ▸ h⟩

end Loses

namespace Expr

open Inferred

variable {declared declared' : Table String Ty}

/-- A call of vaguer types. -/
theorem loses_callType {function : String} {types types' : List Ty} {member : Bool} {ty : Ty}
    {span : Span}
    (h : Declarations.callType ⟨Declarations.standardFunctions, declared⟩ function types member =
      .ok ty) (htypes : Ty.VaguerAll types types') :
    Loses Ty.Vaguer ty
      (ofExcept (Declarations.callType ⟨Declarations.standardFunctions, declared'⟩ function types'
        member) span) := by
  rcases Declarations.callType_vaguer h htypes with ⟨ty', hcall, hty⟩ | ⟨fault, hcall, hfault⟩
  · rw [hcall]
    exact .pure hty
  · rw [hcall]
    exact .fail hfault span

mutual

/-- A tree that is typed without an error is typed no more precisely with vaguer variables, and its
only errors are those of mixed sums. -/
theorem infer_vaguer (hdeclared : Ty.VaguerTable declared declared')
    {scope scope' : Table String Ty} (hscope : Ty.VaguerTable scope scope') :
    ∀ (e : Tree) {ty : Ty},
      e.infer ⟨Declarations.standardFunctions, declared⟩ scope = pure ty →
        Loses Ty.Vaguer ty (e.infer ⟨Declarations.standardFunctions, declared'⟩ scope')
  | literal _ value, ty, h => by
    rw [infer] at h ⊢
    rw [pure_inj h]
    exact .pure (.refl ty)
  | ident m name, ty, h => by
    rw [infer] at h ⊢
    split at h
    · next found hfound =>
      obtain ⟨ty', hty', hvaguer⟩ := hscope.get? hfound
      rw [hty', ← pure_inj h]
      exact .pure hvaguer
    · next hnone =>
      -- No loop has the variable, with either types, so it is looked up among the declared ones.
      rw [hscope.get?_none hnone]
      obtain ⟨ty', hty', hvaguer⟩ := hdeclared.get? (ofOption_eq_pure h)
      dsimp only
      rw [hty']
      exact .pure hvaguer
  | select m operand field testOnly, ty, h => by
    rw [infer, bind_eq_pure_iff] at h
    obtain ⟨operandType, hoperand, h⟩ := h
    rw [infer]
    refine (infer_vaguer hdeclared hscope operand hoperand).bind fun operandType' hvaguer => ?_
    split at h
    · next fieldType hfield =>
      -- A vaguer operand has a vaguer field, and a test for the field is a truth value for both.
      obtain ⟨fieldType', hfield', hvaguer'⟩ := hvaguer.field? hfield
      rw [hfield', ← pure_inj h]
      cases testOnly with
      | true => exact .pure (.refl _)
      | false => exact .pure hvaguer'
    · exact absurd h fail_ne_pure
  | call m function args, ty, h => by
    rw [infer, bind_eq_pure_iff] at h
    obtain ⟨argTypes, hargs, h⟩ := h
    rw [infer]
    refine (inferList_vaguer hdeclared hscope args hargs).bind fun argTypes' hvaguer => ?_
    exact loses_callType (ofExcept_eq_pure h) hvaguer
  | invoke m target function args, ty, h => by
    rw [infer, bind_eq_pure_iff] at h
    obtain ⟨targetType, htarget, h⟩ := h
    rw [bind_eq_pure_iff] at h
    obtain ⟨argTypes, hargs, h⟩ := h
    rw [infer]
    refine (infer_vaguer hdeclared hscope target htarget).bind fun targetType' hfirst => ?_
    refine (inferList_vaguer hdeclared hscope args hargs).bind fun argTypes' hvaguer => ?_
    exact loses_callType (ofExcept_eq_pure h) (.cons hfirst hvaguer)
  | list m elements, ty, h => by
    rw [infer, bind_eq_pure_iff] at h
    obtain ⟨elementTypes, helements, h⟩ := h
    rw [infer, ← pure_inj h]
    refine (inferList_vaguer hdeclared hscope elements helements).bind fun types' hvaguer => ?_
    exact .pure (.list (.joinAll hvaguer))
  | map m entries, ty, h => by
    rw [infer, bind_eq_pure_iff] at h
    obtain ⟨entryTypes, hentries, h⟩ := h
    rw [infer, ← pure_inj h]
    refine (inferEntries_vaguer hdeclared hscope entries hentries).bind fun types' hvaguer => ?_
    -- Keys and values are joined apart.
    have hkeys : Ty.VaguerAll (entryTypes.map Prod.fst) (types'.map Prod.fst) := by
      rw [Ty.VaguerAll, List.forall₂_map_left_iff, List.forall₂_map_right_iff]
      exact hvaguer.imp fun _ _ hpair => hpair.1
    have hvalues : Ty.VaguerAll (entryTypes.map Prod.snd) (types'.map Prod.snd) := by
      rw [Ty.VaguerAll, List.forall₂_map_left_iff, List.forall₂_map_right_iff]
      exact hvaguer.imp fun _ _ hpair => hpair.2
    exact .pure (.map (.joinAll hkeys) (.joinAll hvalues))
  | comprehension m loop var range body, ty, h => by
    rw [infer, bind_eq_pure_iff] at h
    obtain ⟨rangeType, hrange, h⟩ := h
    rw [bind_eq_pure_iff] at h
    obtain ⟨varType, hvar, h⟩ := h
    rw [bind_eq_pure_iff] at h
    obtain ⟨bodyType, hbody, h⟩ := h
    rw [infer]
    refine (infer_vaguer hdeclared hscope range hrange).bind fun rangeType' hvaguer => ?_
    obtain ⟨varType', hitem', hvarType⟩ := hvaguer.item? (ofOption_eq_pure hvar)
    rw [hitem']
    refine Loses.bind (.pure hvarType) fun varType' hvarType => ?_
    refine (infer_vaguer hdeclared (hscope.cons var hvarType) body hbody).bind
      fun bodyType' hbodyType => ?_
    split at h
    · rw [bind_eq_pure_iff] at h
      obtain ⟨_, hreport, -⟩ := h
      exact absurd hreport report_ne_pure
    · next haccepts =>
      -- A vaguer body still passes for a truth value where the loop needs one.
      have haccepts' : ¬(loop.isPredicate && !Ty.bool.accepts bodyType') = true := by
        simp only [Bool.and_eq_true, Bool.not_eq_true', not_and, Bool.not_eq_false] at haccepts ⊢
        exact fun hpredicate => Ty.Vaguer.accepts (haccepts hpredicate) (.refl _) hbodyType
      rw [if_neg haccepts', ← pure_inj h]
      exact .pure (.resultType loop hvarType hbodyType)

/-- Trees that are typed without an error are typed no more precisely with vaguer variables. -/
theorem inferList_vaguer (hdeclared : Ty.VaguerTable declared declared')
    {scope scope' : Table String Ty} (hscope : Ty.VaguerTable scope scope') :
    ∀ (es : List Tree) {types : List Ty},
      inferList ⟨Declarations.standardFunctions, declared⟩ scope es = pure types →
        Loses Ty.VaguerAll types
          (inferList ⟨Declarations.standardFunctions, declared'⟩ scope' es)
  | [], types, h => by
    rw [inferList] at h ⊢
    rw [← pure_inj h]
    exact .pure .nil
  | e :: rest, types, h => by
    rw [inferList, bind_eq_pure_iff] at h
    obtain ⟨ty, he, h⟩ := h
    rw [bind_eq_pure_iff] at h
    obtain ⟨restTypes, hrest, h⟩ := h
    rw [inferList, ← pure_inj h]
    refine (infer_vaguer hdeclared hscope e he).bind fun ty' hvaguer => ?_
    refine (inferList_vaguer hdeclared hscope rest hrest).bind fun types' hvaguers => ?_
    exact .pure (.cons hvaguer hvaguers)

/-- Keys and values that are typed without an error are typed no more precisely with vaguer
variables. -/
theorem inferEntries_vaguer (hdeclared : Ty.VaguerTable declared declared')
    {scope scope' : Table String Ty} (hscope : Ty.VaguerTable scope scope') :
    ∀ (es : List (Tree × Tree)) {types : List (Ty × Ty)},
      inferEntries ⟨Declarations.standardFunctions, declared⟩ scope es = pure types →
        Loses (List.Forall₂ fun t t' => Ty.Vaguer t.1 t'.1 ∧ Ty.Vaguer t.2 t'.2) types
          (inferEntries ⟨Declarations.standardFunctions, declared'⟩ scope' es)
  | [], types, h => by
    rw [inferEntries] at h ⊢
    rw [← pure_inj h]
    exact .pure .nil
  | (k, v) :: rest, types, h => by
    rw [inferEntries, bind_eq_pure_iff] at h
    obtain ⟨keyType, hk, h⟩ := h
    rw [inferEntries]
    refine (infer_vaguer hdeclared hscope k hk).bind fun keyType' hkeyType => ?_
    split at h
    · rw [bind_eq_pure_iff] at h
      obtain ⟨_, hreport, -⟩ := h
      exact absurd hreport report_ne_pure
    · next hkey =>
      rw [Bool.not_eq_true, Bool.not_eq_false'] at hkey
      rw [bind_eq_pure_iff] at h
      obtain ⟨valueType, hv, h⟩ := h
      rw [bind_eq_pure_iff] at h
      obtain ⟨restTypes, hrest, h⟩ := h
      -- A vaguer type of a key can still be one, so nothing is reported between key and value.
      rw [← pure_inj h, hkeyType.isMapKey hkey]
      refine (infer_vaguer hdeclared hscope v hv).bind fun valueType' hvalueType => ?_
      refine (inferEntries_vaguer hdeclared hscope rest hrest).bind fun types' hvaguers => ?_
      exact .pure (.cons ⟨hkeyType, hvalueType⟩ hvaguers)

end

/-- With vaguer variables a checked expression has a vaguer type or is refused, and then for mixed
sums alone. -/
theorem check_vaguer (hdeclared : Ty.VaguerTable declared declared') (e : Tree) {ty : Ty}
    (h : e.check ⟨Declarations.standardFunctions, declared⟩ = .ok ty) :
    (∃ ty', e.check ⟨Declarations.standardFunctions, declared'⟩ = .ok ty' ∧ Ty.Vaguer ty ty') ∨
      ∃ errors, e.check ⟨Declarations.standardFunctions, declared'⟩ = .error errors ∧
        errors ≠ [] ∧ ∀ error ∈ errors, error.fault.IsMixedSum := by
  obtain ⟨hvalue, herrors⟩ :=
    infer_vaguer hdeclared (Ty.VaguerTable.refl []) e (check_eq_ok_iff.mp h)
  unfold check
  dsimp only
  split
  · exact Or.inl ⟨_, rfl, hvalue⟩
  · next hne => exact Or.inr ⟨_, rfl, fun hnil => hne (List.isEmpty_iff.mpr hnil), herrors⟩

/-- A sum of two lists, one of which becomes a list of anything. -/
theorem check_vaguer_concatenation :
    let m : Mark := default
    let e : Tree := .call m BinaryOp.add.function [.ident m "xs", .ident m "ys"]
    let declared : Table String Ty := [("xs", .list .int), ("ys", .list .int)]
    let declared' : Table String Ty := [("xs", .list .dyn), ("ys", .list .int)]
    Ty.VaguerTable declared declared' ∧
      e.check ⟨Declarations.standardFunctions, declared⟩ = .ok (.list .int) ∧
      ((∃ ty', e.check ⟨Declarations.standardFunctions, declared'⟩ = .ok ty' ∧
          Ty.Vaguer (.list .int) ty') ∨
        ∃ errors, e.check ⟨Declarations.standardFunctions, declared'⟩ = .error errors ∧
          errors ≠ [] ∧ ∀ error ∈ errors, error.fault.IsMixedSum) := by
  intro m e declared declared'
  have hdeclared : Ty.VaguerTable declared declared' :=
    (Ty.VaguerTable.refl _).cons "xs" (.list (.dyn _))
  have hcheck : e.check ⟨Declarations.standardFunctions, declared⟩ = .ok (.list .int) := by
    decide +kernel
  exact ⟨hdeclared, hcheck, check_vaguer hdeclared e hcheck⟩

/-- The same sum is refused when nothing is known of one of the lists. -/
theorem check_refuses_mixed_sum :
    let m : Mark := default
    let e : Tree := .call m BinaryOp.add.function [.ident m "xs", .ident m "ys"]
    let declared : Table String Ty := [("xs", .list .int), ("ys", .list .int)]
    let declared' : Table String Ty := [("xs", .dyn), ("ys", .list .int)]
    Ty.VaguerTable declared declared' ∧
      e.check ⟨Declarations.standardFunctions, declared⟩ = .ok (.list .int) ∧
      ¬∃ ty', e.check ⟨Declarations.standardFunctions, declared'⟩ = .ok ty' ∧
        Ty.Vaguer (.list .int) ty' := by
  intro m e declared declared'
  have hcheck : e.check ⟨Declarations.standardFunctions, declared⟩ = .ok (.list .int) := by
    decide +kernel
  have hrefused : e.check ⟨Declarations.standardFunctions, declared'⟩ =
      .error [⟨.noOverload BinaryOp.add.function [.dyn, .list .int], m.span⟩] := by
    decide +kernel
  refine ⟨(Ty.VaguerTable.refl _).cons "xs" (.dyn _), hcheck, ?_⟩
  rintro ⟨ty', hok, -⟩
  rw [hrefused] at hok
  cases hok

end Expr

end CelShell
