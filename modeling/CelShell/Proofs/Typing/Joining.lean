import Mathlib.Order.Bounds.Lattice
import CelShell.Proofs.Typing.Vaguer

/-!
# Joins in any order

Types are ordered by how much they leave open, and a join is the least upper bound of its two types
in this order. The join of several types is their least upper bound too, so it depends on which
types there are, and not on their order or number (`Ty.joinAll_congr`). Wherever the checker joins
types the order of what they come from has no influence: neither that of the elements of a list, nor
that of the entries of a map, nor that of the overloads of a function.
-/

namespace CelShell

namespace Ty

variable {a b : Ty} {types types' : List Ty}

/-! ## The order of types -/

/-- Types that are each vaguer than the other are equal. -/
theorem Vaguer.antisymm (h : Vaguer a b) (h' : Vaguer b a) : a = b := by
  induction h with
  | dyn t => exact h'.eq_dyn
  | refl t => rfl
  | list _ ih =>
    obtain ⟨x, hx, hvaguer⟩ := h'.to_list
    cases hx
    rw [ih hvaguer]
  | map _ _ ihk ihv =>
    obtain ⟨k, v, hkv, hk, hv⟩ := h'.to_map
    cases hkv
    rw [ihk hk, ihv hv]

/-- Types are ordered by how much they leave open, with `dyn` on top, and joins are suprema. -/
instance : SemilatticeSup Ty where
  le := Vaguer
  le_refl := .refl
  le_trans _ _ _ := .trans
  le_antisymm _ _ := Vaguer.antisymm
  sup := join
  le_sup_left := Vaguer.join_left
  le_sup_right := Vaguer.join_right
  sup_le _ _ _ := Vaguer.join_least

/-- Suprema of types are joins. -/
theorem sup_eq_join (a b : Ty) : a ⊔ b = a.join b := rfl

/-! ## Acceptance -/

/-- A type accepts itself. -/
theorem accepts_self (a : Ty) : a.accepts a = true := by
  induction a with
  | list x ih => exact ih
  | map k v ihk ihv => rw [accepts, ihk, ihv, Bool.and_self]
  | _ => rfl

/-- A type may stand where a vaguer one is expected. -/
theorem accepts_of_le (h : a ≤ b) : b.accepts a = true :=
  Vaguer.accepts (accepts_self a) h (.refl a)

/-! ## Several types -/

/-- The join of some types is their least upper bound. -/
theorem isLUB_joinAll (hne : types ≠ []) : IsLUB {t | t ∈ types} (joinAll types) :=
  ⟨fun _ => Vaguer.joinAll_of_mem, fun _ h => Vaguer.joinAll_least hne h⟩

/-- The join of several types depends on which types there are, not on their order or number. -/
theorem joinAll_congr (h : ∀ t, t ∈ types ↔ t ∈ types') : joinAll types = joinAll types' := by
  by_cases hne : types = []
  · have hnone : types' = [] := by
      rw [List.eq_nil_iff_forall_not_mem]
      exact fun t ht => by simpa [hne] using (h t).mpr ht
    rw [hne, hnone]
  · have hne' : types' ≠ [] := by
      obtain ⟨t, ht⟩ := List.exists_mem_of_ne_nil types hne
      exact List.ne_nil_of_mem ((h t).mp ht)
    have hset : {t | t ∈ types} = {t | t ∈ types'} := Set.ext h
    exact (isLUB_joinAll hne).unique (hset ▸ isLUB_joinAll hne')

end Ty

/-! ## Overloads -/

/-- The type of a call does not depend on the order of the overloads. -/
theorem Declaration.resolve?_perm {f f' : Declaration} (h : f.overloads.Perm f'.overloads)
    (args : List Ty) (member : Bool) : f.resolve? args member = f'.resolve? args member := by
  -- The overloads that accept the call are the same ones in another order.
  have hmatching := h.filter fun o => o.accepts args member
  unfold resolve?
  cases hfirst : f.overloads.filter fun o => o.accepts args member with
  | nil =>
    rw [hfirst, List.nil_perm] at hmatching
    rw [hmatching]
  | cons o rest =>
    cases hsecond : f'.overloads.filter fun o => o.accepts args member with
    | nil =>
      rw [hfirst, hsecond, List.perm_nil] at hmatching
      cases hmatching
    | cons p rest' =>
      rw [hfirst, hsecond] at hmatching
      -- A join depends on which results are there and not on their order.
      exact congrArg some (Ty.joinAll_congr fun _ => (hmatching.map _).mem_iff)

/-! ## Literals -/

/-- Two findings with the same type and the same errors, those in any order. -/
structure Inferred.SameInAnyOrder (found found' : Inferred Ty) : Prop where
  /-- The types are the same. -/
  value : found.value = found'.value
  /-- The errors are the same. -/
  errors : found.errors.Perm found'.errors

namespace Expr

variable (d : Declarations) (scope : Table String Ty)

/-- The types of trees, and their errors one after the other. -/
theorem inferList_eq (es : List Tree) :
    inferList d scope es =
      ⟨es.map fun e => (e.infer d scope).value, es.flatMap fun e => (e.infer d scope).errors⟩ := by
  induction es with
  | nil => rfl
  | cons e rest ih =>
    rw [inferList, ih]
    simp only [bind, pure, List.append_nil, List.map_cons, List.flatMap_cons]

/-- The errors of a key: those in it, and one more if no key can have its type. -/
def keyErrors (key : Tree) : List TypeError :=
  let found := key.infer d scope
  found.errors ++ if found.value.isMapKey then [] else [⟨.mapKey found.value, key.mark.span⟩]

/-- The types of keys and values, and their errors one after the other. -/
theorem inferEntries_eq (entries : List (Tree × Tree)) :
    inferEntries d scope entries =
      ⟨entries.map fun e => ((e.1.infer d scope).value, (e.2.infer d scope).value),
        entries.flatMap fun e => keyErrors d scope e.1 ++ (e.2.infer d scope).errors⟩ := by
  induction entries with
  | nil => rfl
  | cons e rest ih =>
    obtain ⟨k, v⟩ := e
    rw [inferEntries, ih]
    cases hkey : (k.infer d scope).value.isMapKey <;>
      simp [bind, pure, Inferred.report, keyErrors, hkey]

variable {d scope} {m : Mark}

/-- The type of a list does not depend on the order of its elements. -/
theorem infer_list_perm {es es' : List Tree} (h : es.Perm es') :
    ((list m es).infer d scope).SameInAnyOrder ((list m es').infer d scope) := by
  rw [infer, infer, inferList_eq, inferList_eq]
  refine ⟨congrArg Ty.list (Ty.joinAll_congr fun _ => (h.map _).mem_iff), ?_⟩
  exact (h.flatMap_right _).append_right []

/-- The type of a map does not depend on the order of its entries. -/
theorem infer_map_perm {entries entries' : List (Tree × Tree)} (h : entries.Perm entries') :
    ((map m entries).infer d scope).SameInAnyOrder ((map m entries').infer d scope) := by
  rw [infer, infer, inferEntries_eq, inferEntries_eq]
  have hkeys := Ty.joinAll_congr fun t => ((h.map fun e => ((e.1.infer d scope).value,
    (e.2.infer d scope).value)).map Prod.fst).mem_iff (a := t)
  have hvalues := Ty.joinAll_congr fun t => ((h.map fun e => ((e.1.infer d scope).value,
    (e.2.infer d scope).value)).map Prod.snd).mem_iff (a := t)
  exact ⟨congrArg₂ Ty.map hkeys hvalues, (h.flatMap_right _).append_right []⟩

end Expr

namespace Ty

/-- Joins do not depend on any order. The join of two types is their least upper bound in the order
of precision, so it is commutative, associative and idempotent, and it accepts both. Therefore a
permutation of the types changes no join of several, one of the elements or entries changes no type
of a literal, with the errors in it the same up to their order, and one of the overloads changes no
type of a call. -/
theorem joins_in_any_order :
    (∀ a b : Ty, IsLUB {a, b} (a.join b)) ∧
      (∀ a b : Ty, a.join b = b.join a) ∧
      (∀ a b c : Ty, (a.join b).join c = a.join (b.join c)) ∧
      (∀ a : Ty, a.join a = a) ∧
      (∀ a b : Ty, (a.join b).accepts a = true ∧ (a.join b).accepts b = true) ∧
      (∀ types types' : List Ty, types.Perm types' → joinAll types = joinAll types') ∧
      (∀ (d : Declarations) (scope : Table String Ty) (m : Mark) (es es' : List Tree),
        es.Perm es' →
          ((Expr.list m es).infer d scope).SameInAnyOrder ((Expr.list m es').infer d scope)) ∧
      (∀ (d : Declarations) (scope : Table String Ty) (m : Mark) (es es' : List (Tree × Tree)),
        es.Perm es' →
          ((Expr.map m es).infer d scope).SameInAnyOrder ((Expr.map m es').infer d scope)) ∧
      ∀ (f f' : Declaration) (args : List Ty) (member : Bool), f.overloads.Perm f'.overloads →
        f.resolve? args member = f'.resolve? args member := by
  -- The laws are those of a semilattice whose supremum is the join.
  refine ⟨fun a b => sup_eq_join a b ▸ isLUB_pair, ?_, ?_, ?_, ?_, ?_, ?_, ?_, ?_⟩
  · intro a b
    rw [← sup_eq_join, ← sup_eq_join, sup_comm]
  · intro a b c
    simp only [← sup_eq_join, sup_assoc]
  · intro a
    rw [← sup_eq_join, sup_idem]
  · intro a b
    exact ⟨accepts_of_le (Vaguer.join_left a b), accepts_of_le (Vaguer.join_right a b)⟩
  · intro types types' h
    exact joinAll_congr fun _ => h.mem_iff
  · intro d scope m es es' h
    exact Expr.infer_list_perm h
  · intro d scope m es es' h
    exact Expr.infer_map_perm h
  · intro f f' args member h
    exact f.resolve?_perm h args member

/-- Lists of different elements, maps of different keys and values and overloads of different
results, each in both orders. -/
theorem joins_in_any_order_nested :
    let m : Mark := default
    let ints : Tree := .list m [.literal m (.int 1)]
    let texts : Tree := .list m [.literal m (.string "a")]
    let exact : Overload := ⟨"exact", [.int], .list .int, false⟩
    let vague : Overload := ⟨"vague", [.dyn], .list .string, false⟩
    let d := Declarations.standard
    joinAll [.list .int, .list .string] = joinAll [.list .string, .list .int] ∧
      ((Expr.list m [ints, texts]).infer d []).SameInAnyOrder
        ((Expr.list m [texts, ints]).infer d []) ∧
      ((Expr.list m [ints, texts]).infer d []).value = .list (.list .dyn) ∧
      ((Expr.map m [(ints, texts), (texts, ints)]).infer d []).SameInAnyOrder
        ((Expr.map m [(texts, ints), (ints, texts)]).infer d []) ∧
      ((Expr.map m [(ints, texts), (texts, ints)]).infer d []).errors ≠ [] ∧
      (Declaration.mk "f" [exact, vague]).resolve? [.int] false =
        (Declaration.mk "f" [vague, exact]).resolve? [.int] false ∧
      (Declaration.mk "f" [exact, vague]).resolve? [.int] false = some (.list .dyn) := by
  intro m ints texts exact vague d
  obtain ⟨-, -, -, -, -, htypes, helements, hentries, hoverloads⟩ := joins_in_any_order
  exact ⟨htypes _ _ (.swap _ _ []), helements d [] m _ _ (.swap _ _ []), by decide +kernel,
    hentries d [] m _ _ (.swap _ _ []), by decide +kernel,
    hoverloads _ _ [.int] false (.swap _ _ []), by decide +kernel⟩

end Ty

end CelShell
