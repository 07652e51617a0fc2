import CelShell.Proofs.Typing.Soundness

/-!
# Vaguer types

`Ty.Vaguer` relates a type to those in which some of its parts are replaced by `dyn`. It is an order
in which the join of types is their least upper bound, and acceptance carries over to vaguer types.
So does all that the checker does with the types of arguments, with one exception: a list can be
added to a list and `dyn` to `dyn`, but not one to the other (`Declarations.callType_vaguer`).
-/

namespace CelShell

namespace Ty

/-- The second type is the first with some of its parts, or all of it, replaced by `dyn`. -/
inductive Vaguer : Ty → Ty → Prop
  /-- Nothing is left. -/
  | dyn (t : Ty) : Vaguer t .dyn
  /-- Nothing is replaced. -/
  | refl (t : Ty) : Vaguer t t
  /-- Parts of the elements are replaced. -/
  | list {a b : Ty} (h : Vaguer a b) : Vaguer (.list a) (.list b)
  /-- Parts of the keys and of the values are replaced. -/
  | map {k k' v v' : Ty} (hk : Vaguer k k') (hv : Vaguer v v') : Vaguer (.map k v) (.map k' v')

/-- Types that are vaguer one by one. -/
abbrev VaguerAll (types types' : List Ty) : Prop := List.Forall₂ Vaguer types types'

namespace Vaguer

variable {a a' b b' c : Ty}

/-- What a list type becomes. -/
theorem of_list (h : Vaguer (.list a) b) : b = .dyn ∨ ∃ a', b = .list a' ∧ Vaguer a a' := by
  cases h with
  | dyn => exact Or.inl rfl
  | refl => exact Or.inr ⟨a, rfl, .refl a⟩
  | list h => exact Or.inr ⟨_, rfl, h⟩

/-- What a map type becomes. -/
theorem of_map (h : Vaguer (.map a b) c) :
    c = .dyn ∨ ∃ a' b', c = .map a' b' ∧ Vaguer a a' ∧ Vaguer b b' := by
  cases h with
  | dyn => exact Or.inl rfl
  | refl => exact Or.inr ⟨a, b, rfl, .refl a, .refl b⟩
  | map hk hv => exact Or.inr ⟨_, _, rfl, hk, hv⟩

/-- What `dyn` becomes. -/
theorem eq_dyn (h : Vaguer .dyn a) : a = .dyn := by
  cases h <;> rfl

/-- A list type comes from a list type. -/
theorem to_list (h : Vaguer b (.list a)) : ∃ b', b = .list b' ∧ Vaguer b' a := by
  cases h with
  | refl => exact ⟨a, rfl, .refl a⟩
  | list h => exact ⟨_, rfl, h⟩

/-- A map type comes from a map type. -/
theorem to_map (h : Vaguer c (.map a b)) :
    ∃ a' b', c = .map a' b' ∧ Vaguer a' a ∧ Vaguer b' b := by
  cases h with
  | refl => exact ⟨a, b, rfl, .refl a, .refl b⟩
  | map hk hv => exact ⟨_, _, rfl, hk, hv⟩

/-- What is vaguer than something vaguer is vaguer. -/
theorem trans (h : Vaguer a b) (h' : Vaguer b c) : Vaguer a c := by
  induction h generalizing c with
  | dyn t => exact h'.eq_dyn ▸ .dyn t
  | refl => exact h'
  | list _ ih =>
    rcases h'.of_list with rfl | ⟨c, rfl, hc⟩
    · exact .dyn _
    · exact .list (ih hc)
  | map _ _ ihk ihv =>
    rcases h'.of_map with rfl | ⟨k, v, rfl, hk, hv⟩
    · exact .dyn _
    · exact .map (ihk hk) (ihv hv)

/-! ## Acceptance -/

/-- Whatever may stand where a vague type is expected. -/
theorem accepts_dyn : ∀ t : Ty, t.accepts .dyn = true
  | .null | .bool | .int | .uint | .double | .string | .list _ | .map _ _ | .dyn => rfl

/-- A vaguer type is accepted by a vaguer one. -/
theorem accepts (h : a.accepts b = true) (ha : Vaguer a a') (hb : Vaguer b b') :
    a'.accepts b' = true := by
  -- Acceptance looks at both types at once, so below the first the second is taken apart as well.
  induction ha generalizing b b' with
  | dyn => rfl
  | refl t =>
    induction hb generalizing t with
    | dyn => exact accepts_dyn t
    | refl => exact h
    | list _ ih =>
      cases t with
      | list t => exact ih t h
      | dyn => rfl
      | _ => cases h
    | map _ _ ihk ihv =>
      cases t with
      | map k v =>
        rw [Ty.accepts, Bool.and_eq_true] at h ⊢
        exact ⟨ihk k h.1, ihv v h.2⟩
      | dyn => rfl
      | _ => cases h
  | list _ ih =>
    cases b with
    | list b =>
      rcases hb.of_list with rfl | ⟨b', rfl, hb'⟩
      · rfl
      · exact ih h hb'
    | dyn => rw [hb.eq_dyn]; rfl
    | _ => cases h
  | map _ _ ihk ihv =>
    cases b with
    | map k v =>
      rcases hb.of_map with rfl | ⟨k', v', rfl, hk, hv⟩
      · rfl
      · rw [Ty.accepts, Bool.and_eq_true] at h ⊢
        exact ⟨ihk h.1 hk, ihv h.2 hv⟩
    | dyn => rw [hb.eq_dyn]; rfl
    | _ => cases h

/-- Vaguer arguments are accepted by the same parameters. -/
theorem acceptsAll {params types types' : List Ty} (h : acceptsAll params types = true)
    (htypes : VaguerAll types types') : acceptsAll params types' = true := by
  induction htypes generalizing params with
  | nil => exact h
  | cons hfirst _ ih =>
    cases params with
    | nil => cases h
    | cons param params =>
      rw [Ty.acceptsAll, Bool.and_eq_true] at h ⊢
      exact ⟨accepts h.1 (.refl param) hfirst, ih h.2⟩

/-! ## Joins -/

/-- A join is vaguer than its first part. -/
theorem join_left (a b : Ty) : Vaguer a (a.join b) := by
  induction a generalizing b with
  | list x ih =>
    -- Two lists or two maps are joined part by part, and anything else gives `dyn`.
    cases b with
    | list y => exact .list (ih y)
    | _ => exact .dyn _
  | map k v ihk ihv =>
    cases b with
    | map k' v' => exact .map (ihk k') (ihv v')
    | _ => exact .dyn _
  | _ =>
    unfold join
    split
    · exact .refl _
    · exact .dyn _

/-- A join is vaguer than its second part. -/
theorem join_right (a b : Ty) : Vaguer b (a.join b) := by
  induction a generalizing b with
  | list x ih =>
    cases b with
    | list y => exact .list (ih y)
    | _ => exact .dyn _
  | map k v ihk ihv =>
    cases b with
    | map k' v' => exact .map (ihk k') (ihv v')
    | _ => exact .dyn _
  | _ =>
    unfold join
    split
    · next heq => exact heq ▸ .refl _
    · exact .dyn _

/-- Joining a more precise type changes nothing. -/
theorem join_eq (h : Vaguer b a) : a.join b = a := by
  induction h with
  | dyn t => cases t <;> rfl
  | refl t =>
    induction t with
    | list x ih => rw [join, ih]
    | map k v ihk ihv => rw [join, ihk, ihv]
    | _ => rfl
  | list _ ih => rw [join, ih]
  | map _ _ ihk ihv => rw [join, ihk, ihv]

/-- The join is the most precise of the types that are vaguer than both. -/
theorem join_least (ha : Vaguer a c) (hb : Vaguer b c) : Vaguer (a.join b) c := by
  induction ha generalizing b with
  | dyn => exact .dyn _
  | refl => rw [join_eq hb]; exact .refl _
  | list _ ih =>
    obtain ⟨x, rfl, hx⟩ := hb.to_list
    exact .list (ih hx)
  | map _ _ ihk ihv =>
    obtain ⟨k, v, rfl, hk, hv⟩ := hb.to_map
    exact .map (ihk hk) (ihv hv)

/-- Vaguer types have a vaguer join. -/
theorem join (ha : Vaguer a a') (hb : Vaguer b b') : Vaguer (a.join b) (a'.join b') :=
  join_least (ha.trans (join_left a' b')) (hb.trans (join_right a' b'))

/-- Joining more types to one makes it vaguer. -/
theorem foldl_join (rest : List Ty) (a : Ty) : Vaguer a (rest.foldl Ty.join a) := by
  induction rest generalizing a with
  | nil => exact .refl a
  | cons t rest ih => exact (join_left a t).trans (ih (a.join t))

/-- The join of some types is vaguer than each. -/
theorem joinAll_of_mem {types : List Ty} (ha : a ∈ types) : Vaguer a (joinAll types) := by
  cases types with
  | nil => cases ha
  | cons first rest =>
    show Vaguer a (rest.foldl Ty.join first)
    induction rest generalizing first with
    | nil =>
      rw [List.mem_singleton] at ha
      exact ha ▸ .refl a
    | cons next rest ih =>
      rcases List.mem_cons.mp ha with rfl | ha
      · -- The first two are joined first, so either of them is below what the rest is joined to.
        exact (join_left a next).trans (foldl_join rest _)
      · rcases List.mem_cons.mp ha with rfl | ha
        · exact (join_right first a).trans (foldl_join rest _)
        · exact ih (first.join next) (List.mem_cons_of_mem _ ha)

/-- The join of some types is the most precise of those that are vaguer than each. -/
theorem joinAll_least {types : List Ty} (hne : types ≠ []) (h : ∀ t ∈ types, Vaguer t c) :
    Vaguer (joinAll types) c := by
  cases types with
  | nil => exact absurd rfl hne
  | cons first rest =>
    show Vaguer (rest.foldl Ty.join first) c
    induction rest generalizing first with
    | nil => exact h first List.mem_cons_self
    | cons next rest ih =>
      obtain ⟨hfirst, hrest⟩ := List.forall_mem_cons.mp h
      obtain ⟨hnext, hrest⟩ := List.forall_mem_cons.mp hrest
      exact ih (first.join next) (by simp)
        (List.forall_mem_cons.mpr ⟨join_least hfirst hnext, hrest⟩)

/-- Types that are vaguer one by one have a vaguer join. -/
theorem joinAll {types types' : List Ty} (h : VaguerAll types types') :
    Vaguer (joinAll types) (joinAll types') := by
  have hall : ∀ t ∈ types, Vaguer t (Ty.joinAll types') := by
    intro t ht
    obtain ⟨t', ht', hvaguer⟩ :=
      exists_mem_of_forall₂ (List.Forall₂.flip (R := flip Vaguer) h) t ht
    exact Vaguer.trans hvaguer (joinAll_of_mem ht')
  cases h with
  | nil => exact .refl _
  | cons => exact joinAll_least (List.cons_ne_nil _ _) hall

/-! ## Parts of types -/

/-- A vaguer type has fields of a vaguer type. -/
theorem field? (h : Vaguer a a') (hfield : a.field? = some b) :
    ∃ b', a'.field? = some b' ∧ Vaguer b b' := by
  cases a with
  | map k v =>
    rcases h.of_map with rfl | ⟨k', v', rfl, hk, hv⟩
    · exact ⟨.dyn, rfl, .dyn b⟩
    · rw [Ty.field?] at hfield
      split at hfield
      · next haccepts =>
        cases hfield
        -- Vaguer keys still take a name.
        exact ⟨v', if_pos (accepts haccepts hk (.refl _)), hv⟩
      · cases hfield
  | dyn => exact ⟨.dyn, by rw [h.eq_dyn]; rfl, .dyn b⟩
  | _ => cases hfield

/-- A loop over a vaguer type has a variable of a vaguer type. -/
theorem item? (h : Vaguer a a') (hitem : a.item? = some b) :
    ∃ b', a'.item? = some b' ∧ Vaguer b b' := by
  cases a with
  | list x =>
    cases hitem
    rcases h.of_list with rfl | ⟨x', rfl, hx⟩
    · exact ⟨.dyn, rfl, .dyn _⟩
    · exact ⟨x', rfl, hx⟩
  | map k v =>
    cases hitem
    rcases h.of_map with rfl | ⟨k', v', rfl, hk, -⟩
    · exact ⟨.dyn, rfl, .dyn _⟩
    · exact ⟨k', rfl, hk⟩
  | dyn => exact ⟨.dyn, by rw [h.eq_dyn]; rfl, .dyn b⟩
  | _ => cases hitem

/-- What is vaguer than a type of keys is one. -/
theorem isMapKey (h : Vaguer a a') (hkey : a.isMapKey = true) : a'.isMapKey = true := by
  cases h with
  | dyn => rfl
  | refl => exact hkey
  | list => cases hkey
  | map => cases hkey

/-- A loop with a vaguer variable and a vaguer body has a vaguer type. -/
theorem resultType (loop : Loop) (ha : Vaguer a a') (hb : Vaguer b b') :
    Vaguer (loop.resultType a b) (loop.resultType a' b') := by
  cases loop with
  | map => exact .list hb
  | filter => exact .list ha
  | _ => exact .refl _

end Vaguer

end Ty

/-! ## Calls -/

/-- No sum of a list and `dyn` is typed, whichever comes first. -/
def TypeFault.IsMixedSum (fault : TypeFault) : Prop :=
  ∃ element, fault = .noOverload BinaryOp.add.function [.list element, .dyn] ∨
    fault = .noOverload BinaryOp.add.function [.dyn, .list element]

namespace Ty

variable {function : String} {a a' b b' c c' ty : Ty}

/-- A vaguer container can be indexed by a vaguer index. -/
theorem Vaguer.index (ha : Vaguer a a') (hb : Vaguer b b')
    (h : structural? Operator.index [a, b] = some ty) :
    ∃ ty', structural? Operator.index [a', b'] = some ty' ∧ Vaguer ty ty' := by
  simp only [structural?, if_true] at h ⊢
  cases a with
  | list x =>
    obtain ⟨haccepts, hty⟩ := Option.ite_none_right_eq_some.mp h
    cases hty
    -- A vaguer list is a list of vaguer elements or `dyn`, which can be indexed by anything.
    rcases ha.of_list with rfl | ⟨x', rfl, hx⟩
    · exact ⟨.dyn, rfl, .dyn _⟩
    · exact ⟨x', if_pos (accepts haccepts (.refl _) hb), hx⟩
  | map k v =>
    obtain ⟨haccepts, hty⟩ := Option.ite_none_right_eq_some.mp h
    cases hty
    rcases ha.of_map with rfl | ⟨k', v', rfl, hk, hv⟩
    · exact ⟨.dyn, rfl, .dyn _⟩
    · exact ⟨v', if_pos (accepts haccepts hk hb), hv⟩
  | dyn => exact ⟨.dyn, by rw [ha.eq_dyn], .dyn _⟩
  | _ => cases h

/-- Membership can be asked of a vaguer container. -/
theorem Vaguer.membership (ha : Vaguer a a') (hb : Vaguer b b')
    (h : structural? BinaryOp.member.function [a, b] = some ty) :
    ∃ ty', structural? BinaryOp.member.function [a', b'] = some ty' ∧ Vaguer ty ty' := by
  have hindex : BinaryOp.member.function ≠ Operator.index := by decide
  simp only [structural?, if_neg hindex, if_true] at h ⊢
  cases b with
  | list x =>
    obtain ⟨haccepts, hty⟩ := Option.ite_none_right_eq_some.mp h
    cases hty
    rcases hb.of_list with rfl | ⟨x', rfl, hx⟩
    · exact ⟨.bool, rfl, .refl _⟩
    · exact ⟨.bool, if_pos (accepts haccepts hx ha), .refl _⟩
  | map k v =>
    obtain ⟨haccepts, hty⟩ := Option.ite_none_right_eq_some.mp h
    cases hty
    rcases hb.of_map with rfl | ⟨k', v', rfl, hk, -⟩
    · exact ⟨.bool, rfl, .refl _⟩
    · exact ⟨.bool, if_pos (accepts haccepts hk ha), .refl _⟩
  | dyn =>
    cases h
    exact ⟨.bool, by rw [hb.eq_dyn], .refl _⟩
  | _ => cases h

/-- Values of vaguer types can be compared. -/
theorem Vaguer.comparable (ha : Vaguer a a') (hb : Vaguer b b')
    (h : (a.accepts b || a == .null || b == .null) = true) :
    (a'.accepts b' || a' == .null || b' == .null) = true := by
  rw [Bool.or_eq_true, Bool.or_eq_true, beq_iff_eq, beq_iff_eq] at h ⊢
  rcases h with (h | rfl) | rfl
  · exact Or.inl (Or.inl (accepts h ha hb))
  · cases ha with
    | dyn => exact Or.inl (Or.inl rfl)
    | refl => exact Or.inl (Or.inr rfl)
  · cases hb with
    | dyn => exact Or.inl (Or.inl (accepts_dyn a'))
    | refl => exact Or.inr rfl

/-- An operator that is typed by the shapes of its operands is typed for vaguer ones, the sum of two
lists only if both or none of them become `dyn`. -/
theorem Vaguer.structural {types types' : List Ty} (htypes : VaguerAll types types')
    (h : structural? function types = some ty) :
    (∃ ty', structural? function types' = some ty' ∧ Vaguer ty ty') ∨
      function = BinaryOp.add.function ∧
        (types' = [.dyn, .dyn] ∨
          ∃ element, types' = [.list element, .dyn] ∨ types' = [.dyn, .list element]) := by
  match types, types', htypes with
  | [a, b], [a', b'], .cons ha (.cons hb .nil) =>
    by_cases hindex : function = Operator.index
    · subst hindex
      exact Or.inl (ha.index hb h)
    by_cases hmember : function = BinaryOp.member.function
    · subst hmember
      exact Or.inl (ha.membership hb h)
    by_cases hequals : function = BinaryOp.equals.function ∨ function = BinaryOp.notEquals.function
    · simp only [structural?, if_neg hindex, if_neg hmember, if_pos hequals] at h ⊢
      obtain ⟨hcomparable, hty⟩ := Option.ite_none_right_eq_some.mp h
      exact Or.inl ⟨.bool, if_pos (ha.comparable hb hcomparable), Option.some.inj hty ▸ .refl _⟩
    · -- What is left is the sum of two lists.
      simp only [structural?, if_neg hindex, if_neg hmember, if_neg hequals] at h ⊢
      split at h
      · next hadd =>
        split at h
        · cases h
          rcases ha.of_list with rfl | ⟨x, rfl, hx⟩
          · rcases hb.of_list with rfl | ⟨y, rfl, -⟩
            · exact Or.inr ⟨hadd, Or.inl rfl⟩
            · exact Or.inr ⟨hadd, Or.inr ⟨y, Or.inr rfl⟩⟩
          · rcases hb.of_list with rfl | ⟨y, rfl, hy⟩
            · exact Or.inr ⟨hadd, Or.inr ⟨x, Or.inl rfl⟩⟩
            · exact Or.inl ⟨_, if_pos hadd, .list (hx.join hy)⟩
        · cases h
      · cases h
  | [a, b, c], [a', b', c'], .cons ha (.cons hb (.cons hc .nil)) =>
    obtain ⟨hconditional, h⟩ := Option.ite_none_right_eq_some.mp h
    obtain ⟨haccepts, hty⟩ := Option.ite_none_right_eq_some.mp h
    refine Or.inl ⟨b'.join c', ?_, Option.some.inj hty ▸ hb.join hc⟩
    simp only [structural?]
    rw [if_pos hconditional, if_pos (accepts haccepts (.refl _) ha)]
  | [], [], .nil => cases h
  | [_], [_], .cons _ .nil => cases h
  | _ :: _ :: _ :: _ :: _, _ :: _ :: _ :: _ :: _, _ => cases h

/-- Apart from the operators that are always typed by shapes, this is done for sums of lists. -/
theorem eq_add_of_structural {types : List Ty} (h : structural? function types = some ty)
    (hstructural : Operator.isStructural function = false) :
    function = BinaryOp.add.function ∧ ∃ x y, types = [.list x, .list y] := by
  simp only [Operator.isStructural, Bool.or_eq_false_iff, beq_eq_false_iff_ne] at hstructural
  obtain ⟨⟨⟨⟨hconditional, hindex⟩, hmember⟩, hequals⟩, hnotEquals⟩ := hstructural
  unfold structural? at h
  split at h
  · -- Of two operands only those of addition are left, and they have to be lists.
    rw [if_neg hindex, if_neg hmember, if_neg (not_or.mpr ⟨hequals, hnotEquals⟩)] at h
    split at h
    · next hadd =>
      split at h
      · exact ⟨hadd, _, _, rfl⟩
      · cases h
    · cases h
  · rw [if_neg hconditional] at h
    cases h
  · cases h

end Ty

/-- The overloads that accept some types accept vaguer ones, and more of them may. -/
theorem Declaration.resolve?_vaguer {d : Declaration} {types types' : List Ty} {member : Bool}
    {ty : Ty} (h : d.resolve? types member = some ty) (htypes : Ty.VaguerAll types types') :
    ∃ ty', d.resolve? types' member = some ty' ∧ Ty.Vaguer ty ty' := by
  -- Parameters that accept some types accept vaguer ones.
  have hsubset : ∀ o ∈ d.overloads.filter (·.accepts types member),
      o ∈ d.overloads.filter (·.accepts types' member) := by
    intro o ho
    rw [List.mem_filter] at ho ⊢
    obtain ⟨hmem, haccepts⟩ := ho
    refine ⟨hmem, ?_⟩
    unfold Overload.accepts at haccepts ⊢
    rw [Bool.and_eq_true] at haccepts ⊢
    exact ⟨haccepts.1, Ty.Vaguer.acceptsAll haccepts.2 htypes⟩
  unfold resolve? at h ⊢
  generalize d.overloads.filter (·.accepts types member) = few at h hsubset
  generalize d.overloads.filter (·.accepts types' member) = many at hsubset
  cases few with
  | nil => cases h
  | cons o few =>
    cases many with
    | nil => exact absurd (hsubset o List.mem_cons_self) List.not_mem_nil
    | cons p many =>
      cases h
      -- The join is over more results, so it is vaguer.
      refine ⟨_, rfl, Ty.Vaguer.joinAll_least (by simp) fun t ht => ?_⟩
      obtain ⟨q, hq, rfl⟩ := List.mem_map.mp ht
      exact .joinAll_of_mem (List.mem_map_of_mem (hsubset q hq))

namespace Declarations

variable {d : Declarations} {function : String} {types types' : List Ty} {member : Bool} {ty : Ty}

/-- A call has a type by the shapes of its operands, or else by the overloads of a declaration. -/
theorem callType_eq_ok_iff :
    d.callType function types member = .ok ty ↔
      (member = false ∧ Ty.structural? function types = some ty) ∨
        (member = false →
          Ty.structural? function types = none ∧ Operator.isStructural function = false) ∧
        ∃ f, d.function? function = some f ∧ f.resolve? types member = some ty := by
  unfold callType
  cases hf : d.function? function with
  | none =>
    cases member <;> cases Ty.structural? function types <;>
      cases Operator.isStructural function <;> simp
  | some f =>
    cases hresolve : f.resolve? types member <;> cases member <;>
      cases Ty.structural? function types <;> cases Operator.isStructural function <;>
      simp [hresolve]

/-- A call of vaguer types has a vaguer type, unless it is a mixed sum. -/
theorem callType_vaguer {declared declared' : Table String Ty}
    (h : callType ⟨standardFunctions, declared⟩ function types member = .ok ty)
    (htypes : Ty.VaguerAll types types') :
    (∃ ty', callType ⟨standardFunctions, declared'⟩ function types' member = .ok ty' ∧
      Ty.Vaguer ty ty') ∨
    ∃ fault, callType ⟨standardFunctions, declared'⟩ function types' member = .error fault ∧
      fault.IsMixedSum := by
  rcases callType_eq_ok_iff.mp h with ⟨rfl, hshape⟩ | ⟨hglobal, f, hf, hresolve⟩
  · rcases Ty.Vaguer.structural htypes hshape with
      ⟨ty', hshape', hty⟩ | ⟨rfl, rfl | ⟨element, rfl | rfl⟩⟩
    · exact Or.inl ⟨ty', callType_eq_ok_iff.mpr (Or.inl ⟨rfl, hshape'⟩), hty⟩
    · exact Or.inl ⟨.dyn, rfl, .dyn ty⟩
    · exact Or.inr ⟨_, rfl, element, Or.inl rfl⟩
    · exact Or.inr ⟨_, rfl, element, Or.inr rfl⟩
  · obtain ⟨ty', hresolve', hty⟩ := Declaration.resolve?_vaguer hresolve htypes
    refine Or.inl ⟨ty', callType_eq_ok_iff.mpr (Or.inr ⟨fun hmember => ?_, f, hf, hresolve'⟩), hty⟩
    obtain ⟨hshape, hstructural⟩ := hglobal hmember
    refine ⟨Option.eq_none_iff_forall_ne_some.mpr fun found hfound => ?_, hstructural⟩
    -- Two lists come from two lists, whose sum would have had a type.
    obtain ⟨rfl, x, y, rfl⟩ := Ty.eq_add_of_structural hfound hstructural
    match types, htypes with
    | [a, b], .cons ha (.cons hb .nil) =>
      obtain ⟨a, rfl, -⟩ := ha.to_list
      obtain ⟨b, rfl, -⟩ := hb.to_list
      cases hshape

end Declarations

end CelShell
