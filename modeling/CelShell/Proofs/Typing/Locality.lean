import CelShell.Proofs.Expr.Calls
import CelShell.Typing.Check

/-!
# Checking depends on what is named

The type of a tree and its errors depend on the types of the variables and on the declarations of
the functions that the tree calls (`Expr.infer_congr`, `Expr.check_congr`). To declare functions
leaves the variables and the functions of all other names as they are
(`Declarations.function?_declareAll`), so it has no effect on the trees that do not call them.
-/

namespace CelShell

namespace Declarations

variable {d d' : Declarations} {f : Declaration} {name : String}

/-- The type of a call depends on the declaration of its function. -/
theorem callType_congr (h : d.function? name = d'.function? name) :
    d.callType name = d'.callType name := by
  funext args member
  unfold callType
  rw [h]

/-- What is found under a name is a declaration of that name. -/
theorem function?_eq_some (h : d.function? name = some f) : f ∈ d.functions ∧ f.name = name := by
  unfold function? at h
  have hname := List.find?_some h
  exact ⟨List.mem_of_find?_eq_some h, beq_iff_eq.mp hname⟩

/-! ## Declaring functions -/

/-- Another function keeps its overloads. -/
theorem find?_mergeInto (functions : List Declaration) (more : List Overload) {other : String}
    (h : name ≠ other) :
    (mergeInto functions name more).find? (fun f => f.name == other) =
      functions.find? fun f => f.name == other := by
  unfold mergeInto
  induction functions with
  | nil => rfl
  | cons first rest ih =>
    rw [List.map_cons, List.find?_cons, List.find?_cons, ih]
    by_cases hfirst : first.name = name
    · -- The function that changes keeps its name, so neither it nor its new version is looked for.
      have hother : (first.name == other) = false := by rw [hfirst]; exact beq_eq_false_iff_ne.mpr h
      have hmerged : ((first.merge more).name == other) = false := hother
      rw [if_pos hfirst, hother, hmerged]
    · rw [if_neg hfirst]

/-- A declaration that is accepted adds a function, or overloads that fit to the function of its
name. -/
theorem declare_eq_ok (h : d.declare f = .ok d') :
    f.overloads ≠ [] ∧
      ((d.function? f.name = none ∧ d' = { d with functions := d.functions ++ [f] }) ∨
        ∃ existing, d.function? f.name = some existing ∧
          existing.conflict? f.overloads = none ∧
          d' = { d with functions := mergeInto d.functions f.name f.overloads }) := by
  unfold declare at h
  split at h
  · cases h
  · next hempty =>
    refine ⟨fun hnil => hempty (List.isEmpty_iff.mpr hnil), ?_⟩
    split at h
    · next hnew => exact Or.inl ⟨hnew, (Except.ok.inj h).symm⟩
    · next existing hknown =>
      split at h
      · cases h
      · next hfits => exact Or.inr ⟨existing, hknown, hfits, (Except.ok.inj h).symm⟩

/-- To declare a function changes no other one. -/
theorem function?_declare {other : String} (h : d.declare f = .ok d') (hother : f.name ≠ other) :
    d'.function? other = d.function? other := by
  obtain ⟨-, ⟨-, rfl⟩ | ⟨_, -, -, rfl⟩⟩ := declare_eq_ok h
  · have hne : (f.name == other) = false := beq_eq_false_iff_ne.mpr hother
    show List.find? _ (_ ++ [f]) = List.find? _ _
    rw [List.find?_append, List.find?_singleton, hne, if_neg Bool.false_ne_true, Option.or_none]
  · exact find?_mergeInto d.functions f.overloads hother

/-- To declare a function changes no variable. -/
theorem variableTypes_declare (h : d.declare f = .ok d') : d'.variableTypes = d.variableTypes := by
  obtain ⟨-, ⟨-, rfl⟩ | ⟨_, -, -, rfl⟩⟩ := declare_eq_ok h <;> rfl

/-- What none of some declarations changes, all of them together do not change. -/
theorem declareAll_keeps {β : Type} (part : Declarations → β) {fs : List Declaration}
    (hstep : ∀ f ∈ fs, ∀ d d', d.declare f = .ok d' → part d' = part d)
    (h : d.declareAll fs = .ok d') : part d' = part d := by
  induction fs generalizing d with
  | nil => exact congrArg part (Except.ok.inj h).symm
  | cons f rest ih =>
    obtain ⟨hf, hrest⟩ := List.forall_mem_cons.mp hstep
    unfold declareAll at h
    rw [List.foldlM_cons] at h
    -- The first declaration that is refused ends them all.
    cases hd : d.declare f with
    | error e =>
      rw [hd] at h
      cases h
    | ok d₁ =>
      rw [hd] at h
      exact (ih hrest h).trans (hf d d₁ hd)

/-- To declare functions changes no other ones. -/
theorem function?_declareAll {fs : List Declaration} {other : String}
    (h : d.declareAll fs = .ok d') (hother : ∀ f ∈ fs, f.name ≠ other) :
    d'.function? other = d.function? other :=
  declareAll_keeps (fun d => d.function? other)
    (fun f hf _ _ hd => function?_declare hd (hother f hf)) h

/-- To declare functions changes no variables. -/
theorem variableTypes_declareAll {fs : List Declaration} (h : d.declareAll fs = .ok d') :
    d'.variableTypes = d.variableTypes :=
  declareAll_keeps Declarations.variableTypes (fun _ _ _ _ => variableTypes_declare) h

end Declarations

/-! ## Trees -/

namespace Expr

variable {d d' : Declarations}

mutual

/-- The type of a tree and the errors in it depend on the variables and on the functions that the
tree calls. -/
theorem infer_congr (hvariables : d.variableTypes = d'.variableTypes) : (e : Tree) →
    (∀ f ∈ e.called, d.function? f = d'.function? f) → ∀ scope, e.infer d scope = e.infer d' scope
  | literal _ _, _, _ => rfl
  | ident _ name, _, scope => by
    unfold infer
    rw [hvariables]
  | select _ operand _ _, h, scope => by
    unfold infer
    rw [infer_congr hvariables operand h scope]
  | call _ function args, h, scope => by
    obtain ⟨hfunction, hargs⟩ := List.forall_mem_cons.mp h
    unfold infer
    rw [inferList_congr hvariables args hargs scope, Declarations.callType_congr hfunction]
  | invoke _ target function args, h, scope => by
    rw [called_invoke] at h
    obtain ⟨hfunction, hrest⟩ := List.forall_mem_cons.mp h
    obtain ⟨htarget, hargs⟩ := List.forall_mem_append.mp hrest
    unfold infer
    rw [infer_congr hvariables target htarget scope, inferList_congr hvariables args hargs scope,
      Declarations.callType_congr hfunction]
  | list _ elements, h, scope => by
    unfold infer
    rw [inferList_congr hvariables elements h scope]
  | map _ entries, h, scope => by
    unfold infer
    rw [inferEntries_congr hvariables entries h scope]
  | comprehension _ loop var range body, h, scope => by
    rw [called_comprehension] at h
    obtain ⟨hrange, hbody⟩ := List.forall_mem_append.mp h
    -- The body is typed with the variable of the loop, whatever type it has.
    have hitem := fun item => infer_congr hvariables body hbody ((var, item) :: scope)
    unfold infer
    simp only [infer_congr hvariables range hrange scope, hitem]

/-- A list has the same types and errors under declarations that agree on the functions called in
it. -/
theorem inferList_congr (hvariables : d.variableTypes = d'.variableTypes) : (es : List Tree) →
    (∀ f ∈ calledOfList es, d.function? f = d'.function? f) →
    ∀ scope, inferList d scope es = inferList d' scope es
  | [], _, _ => rfl
  | e :: rest, h, scope => by
    rw [calledOfList_cons] at h
    obtain ⟨hfirst, hrest⟩ := List.forall_mem_append.mp h
    unfold inferList
    rw [infer_congr hvariables e hfirst scope, inferList_congr hvariables rest hrest scope]

/-- Entries have the same types and errors under declarations that agree on the functions called in
them. -/
theorem inferEntries_congr (hvariables : d.variableTypes = d'.variableTypes) :
    (entries : List (Tree × Tree)) →
    (∀ f ∈ calledOfEntries entries, d.function? f = d'.function? f) →
    ∀ scope, inferEntries d scope entries = inferEntries d' scope entries
  | [], _, _ => rfl
  | (k, v) :: rest, h, scope => by
    rw [calledOfEntries_cons] at h
    obtain ⟨hfirst, hrest⟩ := List.forall_mem_append.mp h
    obtain ⟨hkey, hvalue⟩ := List.forall_mem_append.mp hfirst
    unfold inferEntries
    rw [infer_congr hvariables k hkey scope, infer_congr hvariables v hvalue scope,
      inferEntries_congr hvariables rest hrest scope]

end

/-- Whether a tree passes depends on the variables and on the functions that the tree calls. -/
theorem check_congr {e : Tree} (hvariables : d.variableTypes = d'.variableTypes)
    (h : ∀ f ∈ e.called, d.function? f = d'.function? f) : e.check d = e.check d' := by
  unfold check
  rw [infer_congr hvariables e h []]

end Expr

end CelShell
