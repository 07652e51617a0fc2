import CelShell.Typing.Declaration
import CelShell.Value.Basic
import Mathlib.Data.List.Forall2

/-!
# What values a type has

`Ty.holds` says when a value is of a type: `dyn` has every value, and a list or a map is of a type
when all its parts are of the types of the parts. The join of types has the values of each of
them, and a parameter that says nothing about the parts of its values accepts every type that
shares a value with it.
-/

namespace CelShell.Ty

/-- Whether a value is of a type. -/
def holds : Ty → Value → Bool
  | dyn, _ => true
  | null, .null => true
  | bool, .bool _ => true
  | int, .int _ => true
  | uint, .uint _ => true
  | double, .double _ => true
  | string, .string _ => true
  | list element, .list items => items.all fun v => element.holds v
  | map key value, .map entries =>
    entries.all fun e => key.holds (Value.ofKey e.1) && value.holds e.2
  | _, _ => false

/-- Values are of types, one by one. -/
abbrev HoldsAll (types : List Ty) (values : List Value) : Prop :=
  List.Forall₂ (fun t v => holds t v = true) types values

variable {a b t : Ty} {v : Value}

/-- A list is of a list type if its elements are of the type of the elements. -/
theorem holds_list {items : List Value} :
    (list t).holds (.list items) = true ↔ ∀ v ∈ items, t.holds v = true := by
  rw [holds, List.all_eq_true]

/-- A map is of a map type if its keys and values are of the types of the parts. -/
theorem holds_map {entries : List (MapKey × Value)} :
    (map a b).holds (.map entries) = true ↔
      ∀ e ∈ entries, a.holds (Value.ofKey e.1) = true ∧ b.holds e.2 = true := by
  rw [holds, List.all_eq_true]
  simp only [Bool.and_eq_true]

/-- The values of a list type are lists. -/
theorem eq_list_of_holds (h : (list t).holds v = true) :
    ∃ items, v = .list items ∧ ∀ item ∈ items, t.holds item = true := by
  cases v with
  | list items => exact ⟨items, rfl, holds_list.mp h⟩
  | _ => cases h

/-- The values of a map type are maps. -/
theorem eq_map_of_holds (h : (map a b).holds v = true) :
    ∃ entries, v = .map entries ∧
      ∀ e ∈ entries, a.holds (Value.ofKey e.1) = true ∧ b.holds e.2 = true := by
  cases v with
  | map entries => exact ⟨entries, rfl, holds_map.mp h⟩
  | _ => cases h

/-- The type of a constant has the value of the constant. -/
theorem holds_ofLiteral (l : Literal) : (ofLiteral l).holds (Value.ofLiteral l) = true := by
  cases l <;> rfl

/-! ## Joins -/

/-- The join of two types has the values of both. -/
theorem holds_join (h : a.holds v = true ∨ b.holds v = true) : (a.join b).holds v = true := by
  induction a generalizing b v with
  | list x ih =>
    cases b with
    | list y =>
      have hlist : ∃ items, v = .list items ∧
          ∀ item ∈ items, x.holds item = true ∨ y.holds item = true := by
        rcases h with h | h
        · obtain ⟨items, rfl, hitems⟩ := eq_list_of_holds h
          exact ⟨items, rfl, fun item hitem => Or.inl (hitems item hitem)⟩
        · obtain ⟨items, rfl, hitems⟩ := eq_list_of_holds h
          exact ⟨items, rfl, fun item hitem => Or.inr (hitems item hitem)⟩
      obtain ⟨items, rfl, hitems⟩ := hlist
      exact holds_list.mpr fun item hitem => ih (hitems item hitem)
    | _ => rfl
  | map k w ihk ihw =>
    cases b with
    | map k' w' =>
      have hmap : ∃ entries, v = .map entries ∧ ∀ e ∈ entries,
          (k.holds (Value.ofKey e.1) = true ∨ k'.holds (Value.ofKey e.1) = true) ∧
            (w.holds e.2 = true ∨ w'.holds e.2 = true) := by
        rcases h with h | h
        · obtain ⟨entries, rfl, hentries⟩ := eq_map_of_holds h
          exact ⟨entries, rfl, fun e he => (hentries e he).imp Or.inl Or.inl⟩
        · obtain ⟨entries, rfl, hentries⟩ := eq_map_of_holds h
          exact ⟨entries, rfl, fun e he => (hentries e he).imp Or.inr Or.inr⟩
      obtain ⟨entries, rfl, hentries⟩ := hmap
      exact holds_map.mpr fun e he => ⟨ihk (hentries e he).1, ihw (hentries e he).2⟩
    | _ => rfl
  | _ =>
    -- Without parts, the types are the same or their join is `dyn`.
    unfold join
    split
    · next heq =>
      rcases h with h | h
      · exact h
      · rw [heq]
        exact h
    · rfl

/-- Joining more types to one keeps its values. -/
theorem holds_foldl_join (rest : List Ty) (h : a.holds v = true) :
    (rest.foldl join a).holds v = true := by
  induction rest generalizing a with
  | nil => exact h
  | cons t rest ih => exact ih (holds_join (Or.inl h))

/-- The join of some types has the values of each. -/
theorem holds_joinAll {types : List Ty} (ht : t ∈ types) (h : t.holds v = true) :
    (joinAll types).holds v = true := by
  cases types with
  | nil => cases ht
  | cons first rest =>
    show (rest.foldl join first).holds v = true
    induction rest generalizing first with
    | nil =>
      rw [List.mem_singleton] at ht
      exact ht ▸ h
    | cons next rest ih =>
      -- The first two are folded into one, which has the values of both.
      rcases List.mem_cons.mp ht with rfl | ht
      · exact holds_foldl_join rest (holds_join (Or.inl h))
      · rcases List.mem_cons.mp ht with rfl | ht
        · exact holds_foldl_join rest (holds_join (Or.inr h))
        · exact ih (first.join next) (List.mem_cons_of_mem _ ht)

/-! ## Parameters -/

/-- Whether a type says nothing about the parts of its values. -/
def isShape : Ty → Bool
  | list element => element == dyn
  | map key value => key == dyn && value == dyn
  | _ => true

/-- A parameter that says nothing about parts accepts every type that has one of its values. -/
theorem accepts_of_holds {param arg : Ty} (hshape : param.isShape = true)
    (hparam : param.holds v = true) (harg : arg.holds v = true) : param.accepts arg = true := by
  cases param with
  | list element =>
    rw [isShape, beq_iff_eq] at hshape
    obtain ⟨items, rfl, -⟩ := eq_list_of_holds hparam
    cases arg with
    | list x => rw [hshape, accepts, accepts]
    | dyn => rfl
    | _ => cases harg
  | map key value =>
    rw [isShape, Bool.and_eq_true, beq_iff_eq, beq_iff_eq] at hshape
    obtain ⟨entries, rfl, -⟩ := eq_map_of_holds hparam
    cases arg with
    | map k w => rw [hshape.1, hshape.2, accepts, accepts, accepts, Bool.and_true]
    | dyn => rfl
    | _ => cases harg
  | dyn => rfl
  | _ =>
    -- A type without parts and the type of the argument agree on the kind of the value.
    cases v <;> first | (cases hparam; done) | (cases arg <;> first | rfl | cases harg)

/-- Parameters that say nothing about parts accept types that have the same values. -/
theorem acceptsAll_of_holds {params args : List Ty} {values : List Value}
    (hshape : params.all isShape = true)
    (hparams : HoldsAll params values) (hargs : HoldsAll args values) :
    acceptsAll params args = true := by
  induction hparams generalizing args with
  | nil =>
    cases hargs
    rfl
  | cons hparam _ ih =>
    cases hargs with
    | cons harg hargs =>
      rw [List.all_cons, Bool.and_eq_true] at hshape
      rw [acceptsAll, accepts_of_holds hshape.1 hparam harg, ih hshape.2 hargs, Bool.and_true]

end CelShell.Ty
