import CelShell.Proofs.Eval.Domain
import CelShell.Proofs.Typing.Call

/-!
# Calls of precise types

A type is precise if it leaves nothing open. A parameter that accepts a precise type has all its
values (`Ty.holds_of_accepts`), so whatever a function is called on is among the values of the
parameters of an overload. On those it is safe: `Declaration.Takes` says so of a declaration and
`takes_standardFunctions` proves it of the standard ones. `callType_safe` is the result for calls,
those of the operators that are typed by the shapes of their operands included.
-/

namespace CelShell

/-! ## Types without `dyn` -/

namespace Ty

/-- Whether nothing is left open by a type: `dyn` does not occur in it. -/
def isPrecise : Ty → Bool
  | dyn => false
  | list element => element.isPrecise
  | map key value => key.isPrecise && value.isPrecise
  | _ => true

variable {param arg : Ty} {v : Value}

/-- A parameter that says nothing about parts and accepts a precise type has all its values. -/
theorem holds_of_accepts (hshape : param.isShape = true) (hprecise : arg.isPrecise = true)
    (h : param.accepts arg = true) (hv : arg.holds v = true) : param.holds v = true := by
  cases param with
  | list element =>
    rw [isShape, beq_iff_eq] at hshape
    cases arg with
    | list x =>
      obtain ⟨items, rfl, -⟩ := eq_list_of_holds hv
      rw [hshape]
      exact holds_list.mpr fun _ _ => rfl
    | dyn => cases hprecise
    | _ => cases h
  | map key value =>
    rw [isShape, Bool.and_eq_true, beq_iff_eq, beq_iff_eq] at hshape
    cases arg with
    | map k w =>
      obtain ⟨entries, rfl, -⟩ := eq_map_of_holds hv
      rw [hshape.1, hshape.2]
      exact holds_map.mpr fun _ _ => ⟨rfl, rfl⟩
    | dyn => cases hprecise
    | _ => cases h
  | dyn => rfl
  | _ =>
    -- A type without parts accepts no precise type but itself.
    cases arg with
    | dyn => cases hprecise
    | _ => first | exact hv | cases h

/-- Parameters that say nothing about parts and accept precise types have all their values. -/
theorem holdsAll_of_acceptsAll {params types : List Ty} {args : List Value}
    (hshape : params.all isShape = true) (hprecise : ∀ t ∈ types, t.isPrecise = true)
    (h : acceptsAll params types = true) (hargs : HoldsAll types args) :
    HoldsAll params args := by
  induction hargs generalizing params with
  | nil =>
    cases params with
    | nil => exact .nil
    | cons => cases h
  | cons hv _ ih =>
    cases params with
    | nil => cases h
    | cons param params =>
      rw [acceptsAll, Bool.and_eq_true] at h
      rw [List.all_cons, Bool.and_eq_true] at hshape
      obtain ⟨hfirst, hrest⟩ := List.forall_mem_cons.mp hprecise
      -- Every parameter accepts `dyn`, but a precise type is not `dyn`.
      exact .cons (holds_of_accepts hshape.1 hfirst h.1 hv) (ih hshape.2 hrest h.2)

/-- Two parameters accept two types. -/
theorem eq_pair_of_acceptsAll {p q : Ty} {types : List Ty}
    (h : acceptsAll [p, q] types = true) :
    ∃ a b, types = [a, b] ∧ p.accepts a = true ∧ q.accepts b = true := by
  match types with
  | [a, b] =>
    simp only [acceptsAll, Bool.and_eq_true, and_true] at h
    exact ⟨a, b, rfl, h⟩
  | [] => cases h
  | [_] => simp [acceptsAll] at h
  | _ :: _ :: _ :: _ => simp [acceptsAll] at h

/-- The values of a precise type that can be that of a key can be keys. -/
theorem isSome_toKey? {t : Ty} (hprecise : t.isPrecise = true) (hkey : t.isMapKey = true)
    (hv : t.holds v = true) : v.toKey?.isSome = true := by
  -- A type of keys that is not `dyn` has one kind of value, and each kind of them makes keys.
  cases t with
  | dyn => cases hprecise
  | bool =>
    obtain ⟨b, rfl⟩ := eq_bool_of_holds hv
    rfl
  | int =>
    obtain ⟨n, rfl⟩ := eq_int_of_holds hv
    rfl
  | uint =>
    obtain ⟨n, rfl⟩ := eq_uint_of_holds hv
    rfl
  | string =>
    obtain ⟨s, rfl⟩ := eq_string_of_holds hv
    rfl
  | _ => cases hkey

/-- A precise type accepted as that of truth values is that type. -/
theorem eq_of_accepts_bool {t : Ty} (hprecise : t.isPrecise = true)
    (h : bool.accepts t = true) : t = bool := by
  cases t with
  | dyn => cases hprecise
  | _ => first | rfl | cases h

end Ty

/-! ## Functions of values -/

/-- Whether a function decides itself which of its arguments are evaluated. -/
def Operator.isLazy (function : String) : Bool :=
  function == BinaryOp.and.function || function == BinaryOp.or.function || function == conditional

/-- A function is safe on the values of the parameters of each of its overloads. -/
def Declaration.Takes (d : Declaration) (apply : List Value → Except EvalError Value) : Prop :=
  ∀ o ∈ d.overloads, ∀ args, Ty.HoldsAll o.params args → Safe (apply args)

namespace Declarations

variable {args : List Value} {overloads : List Overload} {types : List Ty}

/-- An operator takes two operands of any of some types. -/
theorem takes_binary (op : BinaryOp) (types : List Ty)
    (hparams : ∀ o ∈ overloads, ∃ t ∈ types, o.params = [t, t])
    (h : ∀ t ∈ types, ∀ a b, t.holds a = true → t.holds b = true → Safe (op.apply a b)) :
    Declaration.Takes ⟨op.function, overloads⟩ (Builtin.call op.function) := by
  intro o ho args hargs
  obtain ⟨t, ht, hpair⟩ := hparams o ho
  rw [hpair] at hargs
  match args, hargs with
  | [a, b], .cons ha (.cons hb .nil) =>
    rw [Builtin.call_binary]
    exact h t ht a b ha hb

/-- An operator takes an operand of any of some types. -/
theorem takes_unary (op : UnaryOp) (types : List Ty)
    (hparams : ∀ o ∈ overloads, ∃ t ∈ types, o.params = [t])
    (h : ∀ v, types.any (·.holds v) = true → Safe (op.apply v)) :
    Declaration.Takes ⟨op.function, overloads⟩ (Builtin.call op.function) := by
  intro o ho args hargs
  obtain ⟨t, ht, hsingle⟩ := hparams o ho
  rw [hsingle] at hargs
  match args, hargs with
  | [v], .cons hv .nil =>
    rw [Builtin.call_unary]
    exact h v (List.any_eq_true.mpr ⟨t, ht, hv⟩)

/-- A function takes an argument of any of some types. -/
theorem takes_core (f : CoreFunction) (hparams : ∀ o ∈ overloads, ∃ t ∈ types, o.params = [t])
    (h : ∀ v, types.any (·.holds v) = true → Safe (f.apply [v])) :
    Declaration.Takes ⟨f.name, overloads⟩ (Builtin.call f.name) := by
  intro o ho args hargs
  obtain ⟨t, ht, hsingle⟩ := hparams o ho
  rw [hsingle] at hargs
  match args, hargs with
  | [v], .cons hv .nil =>
    rw [Builtin.call_core]
    exact h v (List.any_eq_true.mpr ⟨t, ht, hv⟩)

/-- A test of a text for a part takes two texts. -/
theorem takes_textTest (f : CoreFunction) (stem : String)
    (h : ∀ s part, Safe (f.apply [.string s, .string part])) :
    Declaration.Takes ⟨f.name, textTest stem⟩ (Builtin.call f.name) := by
  refine List.forall_mem_singleton.mpr fun args hargs => ?_
  match args, hargs with
  | [a, b], .cons ha (.cons hb .nil) =>
    obtain ⟨s, rfl⟩ := Ty.eq_string_of_holds ha
    obtain ⟨part, rfl⟩ := Ty.eq_string_of_holds hb
    rw [Builtin.call_core]
    exact h s part

/-- A conversion takes the values of its sources. -/
theorem takes_conversion (f : CoreFunction) (result : Ty) {sources : List (String × Ty)}
    (h : ∀ v, (sources.map Prod.snd).any (·.holds v) = true → Safe (f.apply [v])) :
    Declaration.Takes (conversion f.name result sources) (Builtin.call f.name) :=
  takes_core f (List.forall_mem_map.mpr fun _ hp => ⟨_, List.mem_map_of_mem hp, rfl⟩) h

/-- Every standard function of values takes the values of its parameters. -/
theorem takes_standardFunctions :
    ∀ d ∈ standardFunctions, Operator.isLazy d.name = false → d.Takes (Builtin.call d.name) := by
  -- One argument for each family of operators, as their overloads take two values of one type.
  have hdouble : ∀ op : BinaryOp, op.onDoubles?.isSome = true →
      ∀ t ∈ [Ty.int, .uint, .double], ∀ a b, t.holds a = true → t.holds b = true →
        Safe (op.arithmetic a b) := fun op hop _ ht _ _ => op.safe_arithmetic ht fun _ => hop
  have hordered : ∀ op : BinaryOp, ∀ t ∈ [Ty.bool, .int, .uint, .double, .string], ∀ a b,
      t.holds a = true → t.holds b = true → Safe (op.ordering a b) :=
    fun op _ ht _ _ => op.safe_ordering ht
  -- Remainders are not taken of doubles, and no overload offers it.
  have hinteger : ∀ t ∈ [Ty.int, .uint], ∀ a b, t.holds a = true → t.holds b = true →
      Safe (BinaryOp.modulo.arithmetic a b) := by
    intro t ht a b
    refine BinaryOp.safe_arithmetic .modulo (List.mem_append_left [Ty.double] ht) ?_
    rintro rfl
    exact absurd ht (by decide)
  unfold standardFunctions
  simp only [List.forall_mem_cons]
  refine ⟨fun _ => takes_binary .add [.int, .uint, .double, .string] (by decide)
      fun _ ht _ _ => BinaryOp.safe_add ht,
    fun _ => takes_binary .subtract _ (by decide) (hdouble .subtract rfl),
    fun _ => takes_binary .multiply _ (by decide) (hdouble .multiply rfl),
    fun _ => takes_binary .divide _ (by decide) (hdouble .divide rfl),
    fun _ => takes_binary .modulo _ (by decide) hinteger,
    fun _ => takes_unary .negate [.int, .double] (by decide) fun _ =>
      UnaryOp.safe_negate,
    fun _ => takes_unary .not [.bool] (by decide) fun v h =>
      UnaryOp.safe_not (by simpa using h),
    -- The connectives are lazy.
    fun h => absurd h (by decide), fun h => absurd h (by decide),
    fun _ => takes_binary .less _ (by decide) (hordered .less),
    fun _ => takes_binary .lessEquals _ (by decide) (hordered .lessEquals),
    fun _ => takes_binary .greater _ (by decide) (hordered .greater),
    fun _ => takes_binary .greaterEquals _ (by decide) (hordered .greaterEquals),
    fun _ => takes_core .size (by decide) fun _ => Value.safe_size,
    fun _ => takes_textTest .contains _ fun _ _ => .ok _,
    fun _ => takes_textTest .startsWith _ fun _ _ => .ok _,
    fun _ => takes_textTest .endsWith _ fun _ _ => .ok _,
    fun _ => takes_conversion .int _ fun _ => Value.safe_toInt,
    fun _ => takes_conversion .uint _ fun _ => Value.safe_toUint,
    fun _ => takes_conversion .double _ fun _ => Value.safe_toDouble,
    fun _ => takes_conversion .string _ fun _ => Value.safe_toText,
    fun _ => takes_conversion .bool _ fun _ => Value.safe_toBool,
    fun _ h => absurd h List.not_mem_nil⟩

/-! ## Calls -/

variable {declared : Table String Ty} {function : String} {member : Bool} {ty : Ty}

/-- No function that is called on a target chooses among its arguments. -/
theorem isLazy_of_member
    (h : callType ⟨standardFunctions, declared⟩ function types true = .ok ty) :
    Operator.isLazy function = false := by
  have hmember : ∀ f ∈ standardFunctions, (∃ o ∈ f.overloads, o.member = true) →
      Operator.isLazy f.name = false := by decide +kernel
  rcases callType_spec h with ⟨hfalse, -⟩ | ⟨f, hf, rfl, hresolve⟩
  · cases hfalse
  · obtain ⟨⟨o, ho, haccepts⟩, -⟩ := Declaration.resolve?_spec hresolve
    unfold Overload.accepts at haccepts
    rw [Bool.and_eq_true, beq_iff_eq] at haccepts
    exact hmember f hf ⟨o, ho, haccepts.1⟩

/-- A call of precise types by the overloads of a declaration. -/
theorem safe_resolved {f : Declaration} (hf : f ∈ standardFunctions)
    (hlazy : Operator.isLazy f.name = false) (hprecise : ∀ t ∈ types, t.isPrecise = true)
    (hresolve : f.resolve? types member = some ty) (hargs : Ty.HoldsAll types args) :
    Safe (Builtin.call f.name args) := by
  have hshape : ∀ f ∈ standardFunctions, ∀ o ∈ f.overloads, o.params.all Ty.isShape = true := by
    decide +kernel
  obtain ⟨⟨o, ho, haccepts⟩, -⟩ := Declaration.resolve?_spec hresolve
  unfold Overload.accepts at haccepts
  rw [Bool.and_eq_true] at haccepts
  exact takes_standardFunctions f hf hlazy o ho args
    (Ty.holdsAll_of_acceptsAll (hshape f hf o ho) hprecise haccepts.2 hargs)

end Declarations

namespace Ty

variable {function : String} {types : List Ty} {args : List Value} {ty : Ty}

/-- Indexing of a precise type. -/
theorem safe_index {a b : Ty} {container i : Value}
    (h : structural? Operator.index [a, b] = some ty) (hpa : a.isPrecise = true)
    (hpb : b.isPrecise = true) (ha : a.holds container = true) (hb : b.holds i = true) :
    Safe (container.index i) := by
  simp only [structural?, if_true] at h
  cases a with
  | list element =>
    obtain ⟨items, rfl, -⟩ := eq_list_of_holds ha
    -- The index is typed, so it is an int and not merely something that may be one.
    have haccepts : int.accepts b = true := by
      by_contra hno
      simp [hno] at h
    exact Value.safe_index_list items (holds_of_accepts rfl hpb haccepts hb)
  | map key value =>
    obtain ⟨entries, rfl, -⟩ := eq_map_of_holds ha
    exact Value.safe_index_map entries i
  | dyn => cases hpa
  | _ => cases h

/-- Membership in a precise type. -/
theorem safe_membership {a b : Ty} {item container : Value}
    (h : structural? BinaryOp.member.function [a, b] = some ty) (hpb : b.isPrecise = true)
    (hb : b.holds container = true) : Safe (BinaryOp.membership item container) := by
  have hindex : BinaryOp.member.function ≠ Operator.index := by decide
  simp only [structural?, if_neg hindex, if_true] at h
  cases b with
  | list element =>
    obtain ⟨items, rfl, -⟩ := eq_list_of_holds hb
    exact .ok _
  | map key value =>
    obtain ⟨entries, rfl, -⟩ := eq_map_of_holds hb
    exact .ok _
  | dyn => cases hpb
  | _ => cases h

/-- An operator on two operands that is typed by their shapes. -/
theorem safe_structural_pair {a b : Ty} {x y : Value} (h : structural? function [a, b] = some ty)
    (hpa : a.isPrecise = true) (hpb : b.isPrecise = true) (ha : a.holds x = true)
    (hb : b.holds y = true) : Safe (Builtin.call function [x, y]) := by
  by_cases hindex : function = Operator.index
  · subst hindex
    rw [Builtin.call_index]
    exact safe_index h hpa hpb ha hb
  by_cases hmember : function = BinaryOp.member.function
  · subst hmember
    rw [Builtin.call_binary]
    exact safe_membership h hpb hb
  by_cases hequals : function = BinaryOp.equals.function ∨ function = BinaryOp.notEquals.function
  · rcases hequals with rfl | rfl
    · rw [Builtin.call_binary]
      exact .ok _
    · rw [Builtin.call_binary]
      exact .ok _
  · -- What is left is the sum of two lists.
    simp only [structural?, if_neg hindex, if_neg hmember, if_neg hequals] at h
    split at h
    · next hadd =>
      split at h
      · obtain ⟨xs, rfl, -⟩ := eq_list_of_holds ha
        obtain ⟨ys, rfl, -⟩ := eq_list_of_holds hb
        rw [hadd, Builtin.call_binary]
        exact .ok _
      · cases h
    · cases h

/-- An operator that is typed by the shapes of its operands, other than the conditional. -/
theorem safe_structural (h : structural? function types = some ty)
    (hlazy : Operator.isLazy function = false) (hprecise : ∀ t ∈ types, t.isPrecise = true)
    (hargs : HoldsAll types args) : Safe (Builtin.call function args) := by
  match types, args, hargs with
  | [a, b], [x, y], .cons ha (.cons hb .nil) =>
    exact safe_structural_pair h (hprecise a (by simp)) (hprecise b (by simp)) ha hb
  | [a, b, c], [x, y, z], _ =>
    -- Of three operands only the conditional is typed by shapes, and it is lazy.
    have hconditional : function = Operator.conditional := by
      simp only [structural?] at h
      split at h
      · assumption
      · cases h
    rw [hconditional] at hlazy
    exact absurd hlazy (by decide)
  | [], _, _ => cases h
  | [_], _, _ => cases h
  | _ :: _ :: _ :: _ :: _, _, _ => cases h

end Ty

namespace Declarations

variable {declared : Table String Ty} {function : String} {types : List Ty} {args : List Value}
  {member : Bool} {ty : Ty}

/-- A call of precise types that gets the values of its arguments. -/
theorem callType_safe
    (h : callType ⟨standardFunctions, declared⟩ function types member = .ok ty)
    (hlazy : Operator.isLazy function = false) (hprecise : ∀ t ∈ types, t.isPrecise = true)
    (hargs : Ty.HoldsAll types args) : Safe (Builtin.call function args) := by
  rcases callType_spec h with ⟨-, hstructural⟩ | ⟨f, hf, rfl, hresolve⟩
  · exact Ty.safe_structural hstructural hlazy hprecise hargs
  · exact safe_resolved hf hlazy hprecise hresolve hargs

/-- The operands of a connective of precise types are truth values. -/
theorem types_of_connective {op : BinaryOp} (hop : op = .and ∨ op = .or)
    (hprecise : ∀ t ∈ types, t.isPrecise = true)
    (h : callType ⟨standardFunctions, declared⟩ op.function types false = .ok ty) :
    types = [.bool, .bool] := by
  -- Each overload of a connective takes two truth values.
  have hparams : ∀ f ∈ standardFunctions,
      f.name = BinaryOp.and.function ∨ f.name = BinaryOp.or.function →
        ∀ o ∈ f.overloads, o.params = [.bool, .bool] := by decide +kernel
  rcases callType_spec h with ⟨-, hstructural⟩ | ⟨f, hf, hname, hresolve⟩
  · rw [structural?_connective hop] at hstructural
    cases hstructural
  · obtain ⟨⟨o, ho, haccepts⟩, -⟩ := Declaration.resolve?_spec hresolve
    have hconnective : f.name = BinaryOp.and.function ∨ f.name = BinaryOp.or.function := by
      rcases hop with rfl | rfl
      · exact Or.inl hname
      · exact Or.inr hname
    unfold Overload.accepts at haccepts
    rw [Bool.and_eq_true, hparams f hf hconnective o ho] at haccepts
    obtain ⟨a, b, rfl, ha, hb⟩ := Ty.eq_pair_of_acceptsAll haccepts.2
    rw [Ty.eq_of_accepts_bool (hprecise a (by simp)) ha,
      Ty.eq_of_accepts_bool (hprecise b (by simp)) hb]

/-- A conditional has three operands, and if they are precise the first is a truth value. -/
theorem types_of_conditional (hprecise : ∀ t ∈ types, t.isPrecise = true)
    (h : callType ⟨standardFunctions, declared⟩ Operator.conditional types false = .ok ty) :
    ∃ b c, types = [.bool, b, c] := by
  -- The conditional is declared nowhere, so its type comes from the shapes.
  have hnone : ∀ f ∈ standardFunctions, f.name ≠ Operator.conditional := by decide +kernel
  rcases callType_spec h with ⟨-, hstructural⟩ | ⟨f, hf, hname, -⟩
  · match types, hstructural with
    | [a, b], h => cases h
    | [a, b, c], h =>
      simp only [Ty.structural?, if_true] at h
      split at h
      · next haccepts =>
        exact ⟨b, c, by rw [Ty.eq_of_accepts_bool (hprecise a (by simp)) haccepts]⟩
      · cases h
    | [], h => cases h
    | [_], h => cases h
    | _ :: _ :: _ :: _ :: _, h => cases h
  · exact absurd hname (hnone f hf)

end Declarations

end CelShell
