import CelShell.Proofs.Typing.Locality
import CelShell.Proofs.Typing.Progress

/-!
# Checked expressions call what is declared

A call has a type because its function is declared or because it is one of the operators that are
typed by the shapes of their operands (`Declarations.Knows`). The checker types every part of an
expression, so an expression that passes the check calls no other functions, wherever in it the
calls stand: `Expr.knows_of_check`. With the standard declarations these are functions that are
built in (`Declarations.isName_of_knows`).
-/

namespace CelShell

namespace Declarations

variable {d : Declarations} {function : String} {args : List Ty} {ty : Ty}

/-- Calls of a function can have types: it is declared, or an operator whose calls are typed by
the shapes of the operands. -/
def Knows (d : Declarations) (function : String) : Prop :=
  (d.function? function).isSome = true ∨ Operator.isStructural function = true ∨
    function = BinaryOp.add.function

/-- Only some operators are typed by the shapes of their operands. -/
theorem knows_of_structural? (h : Ty.structural? function args = some ty) : d.Knows function := by
  by_cases hstructural : Operator.isStructural function = true
  · exact Or.inr (Or.inl hstructural)
  by_cases hadd : function = BinaryOp.add.function
  · exact Or.inr (Or.inr hadd)
  simp only [Operator.isStructural, Bool.or_eq_true, beq_iff_eq, not_or] at hstructural
  obtain ⟨⟨⟨⟨hconditional, hindex⟩, hmember⟩, hequals⟩, hnotEquals⟩ := hstructural
  -- With none of these names no shape gives a type.
  unfold Ty.structural? at h
  split at h
  · rw [if_neg hindex, if_neg hmember, if_neg (not_or.mpr ⟨hequals, hnotEquals⟩), if_neg hadd] at h
    cases h
  · rw [if_neg hconditional] at h
    cases h
  · cases h

/-- A call that has a type is one of a function that is known. -/
theorem knows_of_callType {member : Bool} (h : d.callType function args member = .ok ty) :
    d.Knows function := by
  unfold callType at h
  split at h
  · next found hshape =>
    cases member with
    | true => cases hshape
    | false => exact knows_of_structural? hshape
  · split at h
    · cases h
    · -- Without a declaration the call has no overloads to look among.
      cases hfunction : d.function? function with
      | some f => exact Or.inl (by rw [hfunction]; rfl)
      | none =>
        rw [hfunction] at h
        cases h

/-- The functions that are known without any declarations beside the standard ones are built in. -/
theorem isName_of_knows {variableTypes : Table String Ty}
    (h : Knows ⟨standardFunctions, variableTypes⟩ function) : Builtin.isName function = true := by
  have hstandard : ∀ f ∈ standardFunctions, Builtin.isName f.name = true := by decide
  rcases h with hdeclared | hstructural | rfl
  · obtain ⟨f, hf⟩ := Option.isSome_iff_exists.mp hdeclared
    obtain ⟨hmem, rfl⟩ := function?_eq_some hf
    exact hstandard f hmem
  · simp only [Operator.isStructural, Bool.or_eq_true, beq_iff_eq] at hstructural
    rcases hstructural with (((rfl | rfl) | rfl) | rfl) | rfl <;> decide
  · decide

end Declarations

namespace Expr

open Inferred

variable {d : Declarations}

mutual

/-- A tree that is typed without an error calls functions that are known. -/
theorem knows_of_infer : ∀ (e : Tree) {scope : Table String Ty} {ty : Ty},
    e.infer d scope = pure ty → ∀ f ∈ e.called, d.Knows f
  | literal _ _, _, _, _ => fun _ hf => absurd hf List.not_mem_nil
  | ident _ _, _, _, _ => fun _ hf => absurd hf List.not_mem_nil
  | select _ operand _ _, _, _, h => by
    rw [infer, bind_eq_pure_iff] at h
    obtain ⟨_, hoperand, -⟩ := h
    exact knows_of_infer operand hoperand
  | call _ function args, _, _, h => by
    rw [infer, bind_eq_pure_iff] at h
    obtain ⟨_, hargs, h⟩ := h
    exact List.forall_mem_cons.mpr
      ⟨Declarations.knows_of_callType (ofExcept_eq_pure h), knows_of_inferList args hargs⟩
  | invoke _ target function args, _, _, h => by
    rw [infer, bind_eq_pure_iff] at h
    obtain ⟨_, htarget, h⟩ := h
    rw [bind_eq_pure_iff] at h
    obtain ⟨_, hargs, h⟩ := h
    rw [called_invoke]
    exact List.forall_mem_cons.mpr ⟨Declarations.knows_of_callType (ofExcept_eq_pure h),
      List.forall_mem_append.mpr ⟨knows_of_infer target htarget, knows_of_inferList args hargs⟩⟩
  | list _ elements, _, _, h => by
    rw [infer, bind_eq_pure_iff] at h
    obtain ⟨_, helements, -⟩ := h
    exact knows_of_inferList elements helements
  | map _ entries, _, _, h => by
    rw [infer, bind_eq_pure_iff] at h
    obtain ⟨_, hentries, -⟩ := h
    exact knows_of_inferEntries entries hentries
  | comprehension _ _ _ range body, _, _, h => by
    rw [infer, bind_eq_pure_iff] at h
    obtain ⟨_, hrange, h⟩ := h
    rw [bind_eq_pure_iff] at h
    obtain ⟨_, -, h⟩ := h
    rw [bind_eq_pure_iff] at h
    obtain ⟨_, hbody, -⟩ := h
    rw [called_comprehension]
    exact List.forall_mem_append.mpr ⟨knows_of_infer range hrange, knows_of_infer body hbody⟩

/-- Trees without a type error call known functions only. -/
theorem knows_of_inferList : ∀ (es : List Tree) {scope : Table String Ty} {tys : List Ty},
    inferList d scope es = pure tys → ∀ f ∈ calledOfList es, d.Knows f
  | [], _, _, _ => fun _ hf => absurd hf List.not_mem_nil
  | e :: rest, _, _, h => by
    rw [inferList, bind_eq_pure_iff] at h
    obtain ⟨_, he, h⟩ := h
    rw [bind_eq_pure_iff] at h
    obtain ⟨_, hrest, -⟩ := h
    rw [calledOfList_cons]
    exact List.forall_mem_append.mpr ⟨knows_of_infer e he, knows_of_inferList rest hrest⟩

/-- Entries without a type error call known functions only. -/
theorem knows_of_inferEntries :
    ∀ (entries : List (Tree × Tree)) {scope : Table String Ty} {tys : List (Ty × Ty)},
      inferEntries d scope entries = pure tys → ∀ f ∈ calledOfEntries entries, d.Knows f
  | [], _, _, _ => fun _ hf => absurd hf List.not_mem_nil
  | (k, v) :: rest, _, _, h => by
    rw [inferEntries, bind_eq_pure_iff] at h
    obtain ⟨_, hk, h⟩ := h
    split at h
    · -- A key of a type that cannot be one is reported.
      rw [bind_eq_pure_iff] at h
      obtain ⟨_, hreport, -⟩ := h
      exact absurd hreport report_ne_pure
    · rw [bind_eq_pure_iff] at h
      obtain ⟨_, hv, h⟩ := h
      rw [bind_eq_pure_iff] at h
      obtain ⟨_, hrest, -⟩ := h
      rw [calledOfEntries_cons]
      exact List.forall_mem_append.mpr
        ⟨List.forall_mem_append.mpr ⟨knows_of_infer k hk, knows_of_infer v hv⟩,
          knows_of_inferEntries rest hrest⟩

end

/-- An expression that is checked calls functions that are known. -/
theorem knows_of_check {e : Tree} {ty : Ty} (h : e.check d = .ok ty) : ∀ f ∈ e.called, d.Knows f :=
  knows_of_infer e (check_eq_ok_iff.mp h)

end Expr

end CelShell
