import CelShell.Proofs.Eval.Builtin

/-!
# Calls give values of their types

A call is typed by the overloads that accept the types of its arguments, and several may when an
argument is `dyn`. `Declaration.Covers` says that whichever they are, the function gives only
values of their joined type. It holds of every standard function for one of two reasons: all
overloads give the same type, or the arguments that the function took at a run are those of an
overload, which then is one of those that accept their types.
-/

namespace CelShell

namespace Declaration

variable {d : Declaration} {types : List Ty} {args : List Value} {member : Bool} {ty : Ty}

/-- The type of a call is that of some overloads that accept it, and has the values of each. -/
theorem resolve?_spec (h : d.resolve? types member = some ty) :
    (∃ o ∈ d.overloads, o.accepts types member = true) ∧
      ∀ o ∈ d.overloads, o.accepts types member = true →
        ∀ v, o.result.holds v = true → ty.holds v = true := by
  unfold resolve? at h
  split at h
  · cases h
  · next first rest hfilter =>
    -- The overloads that are joined are those that accept the call.
    have hmem : ∀ o, o ∈ first :: rest ↔ o ∈ d.overloads ∧ o.accepts types member = true := by
      intro o
      rw [← hfilter, List.mem_filter]
    have hty : Ty.joinAll ((first :: rest).map Overload.result) = ty := Option.some.inj h
    constructor
    · exact ⟨first, (hmem first).mp List.mem_cons_self⟩
    · intro o ho haccepts v hv
      rw [← hty]
      exact Ty.holds_joinAll (List.mem_map_of_mem ((hmem o).mpr ⟨ho, haccepts⟩)) hv

/-- A function gives only values of the type of the call, however the call is resolved. -/
def Covers (d : Declaration) (apply : List Value → Except EvalError Value) : Prop :=
  ∀ types args member ty, d.resolve? types member = some ty → Ty.HoldsAll types args →
    Yields (fun v => ty.holds v = true) (apply args)

/-- A function whose overloads all give one type covers its declaration if it gives that type. -/
theorem covers_of_result {apply : List Value → Except EvalError Value} {result : Ty}
    (hresult : ∀ o ∈ d.overloads, o.result = result)
    (happly : ∀ args, Yields (fun v => result.holds v = true) (apply args)) : d.Covers apply := by
  intro types args member ty hresolve _
  obtain ⟨⟨o, ho, haccepts⟩, hresults⟩ := resolve?_spec hresolve
  refine (happly args).mono fun v hv => hresults o ho haccepts v ?_
  rw [hresult o ho]
  exact hv

/-- The overload whose parameters the arguments are accepts their types, so its values are of the
type of the call. -/
theorem holds_of_signature (hmember : ∀ o ∈ d.overloads, o.member = false)
    (hshape : ∀ o ∈ d.overloads, o.params.all Ty.isShape = true)
    (hresolve : d.resolve? types member = some ty) (htypes : Ty.HoldsAll types args)
    {o : Overload} (ho : o ∈ d.overloads) (hparams : Ty.HoldsAll o.params args) {v : Value}
    (hv : o.result.holds v = true) : ty.holds v = true := by
  obtain ⟨⟨p, hp, hpaccepts⟩, hresults⟩ := resolve?_spec hresolve
  -- Some overload accepts the call, so the style of the call is that of all of them.
  have hstyle : member = false := by
    unfold Overload.accepts at hpaccepts
    rw [Bool.and_eq_true, beq_iff_eq] at hpaccepts
    rw [← hpaccepts.1, hmember p hp]
  apply hresults o ho _ v hv
  unfold Overload.accepts
  rw [hmember o ho, hstyle, Ty.acceptsAll_of_holds (hshape o ho) hparams htypes]
  rfl

end Declaration

namespace Declarations

open Declaration

/-! ## Functions of several types -/

/-- Two operands of one type are those of the overload for the type. -/
theorem holdsAll_pair {t : Ty} {a b : Value} (ha : t.holds a = true) (hb : t.holds b = true) :
    Ty.HoldsAll [t, t] [a, b] := .cons ha (.cons hb .nil)

/-- The overload of an arithmetic operator for a type. -/
theorem mem_arithmetic (stem : String) {operands : List (String × Ty)} {tag : String} {t : Ty}
    (h : (tag, t) ∈ operands) :
    globalOverload (stem ++ "_" ++ tag) [t, t] t ∈ arithmetic stem operands :=
  List.mem_map.mpr ⟨(tag, t), h, rfl⟩

/-- The overloads of an arithmetic operator are not called on a target. -/
theorem arithmetic_member (stem : String) (operands : List (String × Ty)) :
    ∀ o ∈ arithmetic stem operands, o.member = false :=
  List.forall_mem_map.mpr fun _ _ => rfl

/-- The parameters of an arithmetic operator say nothing about parts. -/
theorem arithmetic_shape (stem : String) {operands : List (String × Ty)}
    (h : ∀ p ∈ operands, p.2.isShape = true) :
    ∀ o ∈ arithmetic stem operands, o.params.all Ty.isShape = true := by
  refine List.forall_mem_map.mpr fun p hp => ?_
  show ([p.2, p.2].all Ty.isShape) = true
  rw [List.all_cons, List.all_cons, h p hp, List.all_nil]
  rfl

/-- Numbers say nothing about parts. -/
theorem numbers_shape : ∀ p ∈ numbers, p.2.isShape = true := List.all_eq_true.mp (by decide)

/-- Every type of numbers has its tag. -/
theorem exists_number_tag {t : Ty} (h : t ∈ [Ty.int, .uint, .double]) :
    ∃ tag, (tag, t) ∈ numbers := by
  obtain ⟨p, hp, rfl⟩ := List.mem_map.mp (show t ∈ numbers.map Prod.snd from h)
  exact ⟨p.1, hp⟩

/-- An arithmetic operator covers its overloads if there is one for every type of numbers that it
takes. -/
theorem covers_arithmetic (op : BinaryOp) (stem : String) {operands : List (String × Ty)}
    (happly : ∀ a b, op.apply a b = op.arithmetic a b)
    (hshape : ∀ p ∈ operands, p.2.isShape = true)
    (hoperands : ∀ t ∈ [Ty.int, .uint, .double], (t = .double → op.onDoubles?.isSome = true) →
      ∃ tag, (tag, t) ∈ operands) :
    Declaration.Covers ⟨op.function, arithmetic stem operands⟩ (Builtin.call op.function) := by
  intro types args member ty hresolve htypes
  apply Builtin.yields_binary
  intro a b hargs
  rw [happly]
  refine (op.yields_arithmetic a b).mono fun v hv => ?_
  obtain ⟨t, ht, ha, hb, hv, hdouble⟩ := hv
  -- The operator took two numbers of one type, and there is an overload for that type.
  obtain ⟨tag, htag⟩ := hoperands t ht hdouble
  exact holds_of_signature (arithmetic_member stem operands) (arithmetic_shape stem hshape) hresolve
    htypes (mem_arithmetic stem htag) (hargs ▸ holdsAll_pair ha hb) hv

/-- Negation covers its overloads. -/
theorem covers_negate :
    Declaration.Covers ⟨UnaryOp.negate.function,
      [globalOverload "negate_int64" [.int] .int, globalOverload "negate_double" [.double] .double]⟩
      (Builtin.call UnaryOp.negate.function) := by
  intro types args member ty hresolve htypes
  have hmember : ∀ o ∈ [globalOverload "negate_int64" [.int] .int,
      globalOverload "negate_double" [.double] .double], o.member = false := by decide
  have hshape : ∀ o ∈ [globalOverload "negate_int64" [.int] .int,
      globalOverload "negate_double" [.double] .double], o.params.all Ty.isShape = true := by decide
  apply Builtin.yields_unary
  intro a hargs
  refine (UnaryOp.yields_negate a).mono fun v hv => ?_
  obtain ⟨t, ht, ha, hv⟩ := hv
  have hparams : Ty.HoldsAll [t] args := hargs ▸ .cons ha .nil
  -- The sign was changed on an int or on a double, and each has an overload.
  rcases List.mem_pair.mp ht with rfl | rfl
  · exact holds_of_signature hmember hshape hresolve htypes List.mem_cons_self hparams hv
  · exact holds_of_signature hmember hshape hresolve htypes
      (List.mem_cons_of_mem _ List.mem_cons_self) hparams hv

/-- The overloads of addition. -/
def additions : List Overload :=
  arithmetic "add" numbers ++ [globalOverload "add_string" [.string, .string] .string]

/-- A type that can be added has an overload of addition. -/
theorem exists_mem_additions {t : Ty} (h : t ∈ [Ty.int, .uint, .double, .string]) :
    ∃ id, globalOverload id [t, t] t ∈ additions := by
  rcases List.mem_append.mp (show t ∈ [Ty.int, .uint, .double] ++ [.string] from h) with h | h
  · obtain ⟨tag, htag⟩ := exists_number_tag h
    exact ⟨_, List.mem_append_left _ (mem_arithmetic "add" htag)⟩
  · rw [List.mem_singleton] at h
    exact ⟨"add_string", List.mem_append_right _ (List.mem_singleton.mpr (by rw [h]))⟩

/-- No overload of addition takes a list, so two types that have lists are accepted only if both are
`dyn`; then all overloads are, and nothing is known of the sum. -/
theorem eq_dyn_of_add_lists {a b ty : Ty} {member : Bool} {xs ys : List Value}
    (ha : a.holds (.list xs) = true) (hb : b.holds (.list ys) = true)
    (h : Declaration.resolve? ⟨BinaryOp.add.function, additions⟩ [a, b] member = some ty) :
    ty = .dyn := by
  cases member with
  | true =>
    have hnone : Declaration.resolve? ⟨BinaryOp.add.function, additions⟩ [a, b] true = none := rfl
    rw [hnone] at h
    cases h
  | false =>
    -- A type that has a list is a list type or `dyn`, and no overload accepts the former.
    cases a with
    | list x =>
      have hnone : Declaration.resolve? ⟨BinaryOp.add.function, additions⟩ [.list x, b] false =
        none := rfl
      rw [hnone] at h
      cases h
    | dyn =>
      cases b with
      | list y => cases h
      | dyn =>
        cases h
        rfl
      | _ => cases hb
    | _ => cases ha

/-- Addition covers its overloads. -/
theorem covers_add :
    Declaration.Covers ⟨BinaryOp.add.function, additions⟩ (Builtin.call BinaryOp.add.function) := by
  intro types args member ty hresolve htypes
  have hmember : ∀ o ∈ additions, o.member = false := by decide
  have hshape : ∀ o ∈ additions, o.params.all Ty.isShape = true := by decide
  apply Builtin.yields_binary
  intro a b hargs
  refine (BinaryOp.yields_add a b).mono fun v hv => ?_
  -- Two lists are added although no overload takes them.
  rcases hv with ⟨t, ht, ha, hb, hv⟩ | ⟨xs, ys, rfl, rfl, -⟩
  · obtain ⟨id, hid⟩ := exists_mem_additions ht
    exact holds_of_signature hmember hshape hresolve htypes hid (hargs ▸ holdsAll_pair ha hb) hv
  · rw [hargs] at htypes
    cases htypes with
    | cons ha htypes =>
      cases htypes with
      | cons hb htypes =>
        cases htypes
        rw [eq_dyn_of_add_lists ha hb hresolve]
        rfl

/-! ## Functions of one type -/

/-- A comparison covers its overloads. -/
theorem covers_ordering (op : BinaryOp) (stem : String)
    (happly : ∀ a b, op.apply a b = op.ordering a b) :
    Declaration.Covers ⟨op.function, ordering stem⟩ (Builtin.call op.function) := by
  have hresult : ∀ o ∈ ordering stem, o.result = .bool := List.forall_mem_map.mpr fun _ _ => rfl
  refine covers_of_result hresult fun args => ?_
  apply Builtin.yields_binary
  intro a b _
  rw [happly]
  exact op.yields_ordering a b

/-- A function that is called by a name of its own covers overloads that give its type. -/
theorem covers_core (f : CoreFunction) {overloads : List Overload}
    (h : ∀ o ∈ overloads, o.result = f.resultType) :
    Declaration.Covers ⟨f.name, overloads⟩ (Builtin.call f.name) := by
  refine covers_of_result h fun args => ?_
  rw [Builtin.call_core]
  exact f.yields_apply args

/-- A conversion covers its overloads. -/
theorem covers_conversion (f : CoreFunction) (sources : List (String × Ty)) :
    Declaration.Covers (conversion f.name f.resultType sources) (Builtin.call f.name) :=
  covers_core f (List.forall_mem_map.mpr fun _ _ => rfl)

/-- The connectives do not work on values, so as functions of values they give nothing. -/
theorem covers_connective (op : BinaryOp) (overloads : List Overload) (h : op = .and ∨ op = .or) :
    Declaration.Covers ⟨op.function, overloads⟩ (Builtin.call op.function) := by
  intro types args member ty _ _
  apply Builtin.yields_binary
  intro a b _
  rcases h with rfl | rfl
  · exact Yields.refused _ _
  · exact Yields.refused _ _

/-- A negated truth value covers its overload. -/
theorem covers_not :
    Declaration.Covers ⟨UnaryOp.not.function, [globalOverload "logical_not" [.bool] .bool]⟩
      (Builtin.call UnaryOp.not.function) := by
  refine covers_of_result (List.forall_mem_singleton.mpr rfl) fun args => ?_
  apply Builtin.yields_unary
  intro v _
  exact UnaryOp.yields_not v

/-- There are no remainders of doubles, so the overloads for integers are enough. -/
theorem covers_modulo :
    Declaration.Covers ⟨BinaryOp.modulo.function, arithmetic "modulo" integers⟩
      (Builtin.call BinaryOp.modulo.function) := by
  refine covers_arithmetic .modulo "modulo" (fun _ _ => rfl) (List.all_eq_true.mp (by decide)) ?_
  intro t ht hdouble
  rcases List.mem_append.mp (show t ∈ [Ty.int, .uint] ++ [.double] from ht) with ht | ht
  · obtain ⟨p, hp, rfl⟩ := List.mem_map.mp (show t ∈ integers.map Prod.snd from ht)
    exact ⟨p.1, hp⟩
  · exact absurd (hdouble (List.mem_singleton.mp ht)) Bool.false_ne_true

/-- Every standard function gives only values of the types of its calls. -/
theorem covers_standardFunctions : ∀ d ∈ standardFunctions, d.Covers (Builtin.call d.name) := by
  unfold standardFunctions
  simp only [List.forall_mem_cons]
  -- In the order of the table: arithmetic, signs, connectives, orders, texts, conversions.
  refine ⟨covers_add,
    covers_arithmetic .subtract "subtract" (fun _ _ => rfl) numbers_shape fun _ h _ =>
      exists_number_tag h,
    covers_arithmetic .multiply "multiply" (fun _ _ => rfl) numbers_shape fun _ h _ =>
      exists_number_tag h,
    covers_arithmetic .divide "divide" (fun _ _ => rfl) numbers_shape fun _ h _ =>
      exists_number_tag h,
    covers_modulo, covers_negate, covers_not,
    covers_connective .and _ (Or.inl rfl), covers_connective .or _ (Or.inr rfl),
    covers_ordering .less "less" fun _ _ => rfl,
    covers_ordering .lessEquals "less_equals" fun _ _ => rfl,
    covers_ordering .greater "greater" fun _ _ => rfl,
    covers_ordering .greaterEquals "greater_equals" fun _ _ => rfl,
    covers_core .size (by decide),
    covers_core .contains (by decide),
    covers_core .startsWith (by decide),
    covers_core .endsWith (by decide),
    covers_conversion .int _, covers_conversion .uint _, covers_conversion .double _,
    covers_conversion .string _, covers_conversion .bool _,
    fun _ h => absurd h List.not_mem_nil⟩

end Declarations

/-! ## Operators that are typed by shape -/

namespace Ty

variable {function : String} {types : List Ty} {args : List Value} {ty : Ty}

/-- Indexing gives an element of a list, a value of a map, or something nothing is known of. -/
theorem yields_index_typed {a b : Ty} {container i : Value}
    (h : structural? Operator.index [a, b] = some ty) (ha : a.holds container = true) :
    Yields (fun v => ty.holds v = true) (container.index i) := by
  simp only [structural?, if_true] at h
  split at h
  · next element =>
    split at h
    · obtain ⟨items, rfl, hitems⟩ := eq_list_of_holds ha
      rw [← Option.some.inj h]
      exact Value.yields_index_list i hitems
    · cases h
  · next key value =>
    split at h
    · obtain ⟨entries, rfl, -⟩ := eq_map_of_holds ha
      rw [← Option.some.inj h]
      exact Value.yields_index_map i ha
    · cases h
  · -- Nothing is known of the container, and `dyn` has whatever it gives.
    rw [← Option.some.inj h]
    exact (Value.yields_index container i).mono fun _ _ => rfl
  · cases h

/-- Two lists give a list of the elements of both. -/
theorem yields_add_lists {a b : Ty} {x y : Value} (ha : (list a).holds x = true)
    (hb : (list b).holds y = true) :
    Yields (fun v => (list (a.join b)).holds v = true) (BinaryOp.add.apply x y) := by
  obtain ⟨xs, rfl, hxs⟩ := eq_list_of_holds ha
  obtain ⟨ys, rfl, hys⟩ := eq_list_of_holds hb
  refine .ok (holds_list.mpr fun v hv => ?_)
  rcases List.mem_append.mp hv with hv | hv
  · exact holds_join (Or.inl (hxs v hv))
  · exact holds_join (Or.inr (hys v hv))

/-- An operator on two operands that is typed by their shapes gives only values of that type. -/
theorem yields_structural_pair {a b : Ty} {x y : Value}
    (h : structural? function [a, b] = some ty) (ha : a.holds x = true) (hb : b.holds y = true) :
    Yields (fun v => ty.holds v = true) (Builtin.call function [x, y]) := by
  by_cases hindex : function = Operator.index
  · rw [hindex] at h
    rw [hindex, Builtin.call_index]
    exact yields_index_typed h ha
  · simp only [structural?, if_neg hindex] at h
    split at h
    · next hmember =>
      -- Whatever the container, the answer is a truth value.
      have hbool : ty = .bool := by
        split at h
        · split at h
          · exact (Option.some.inj h).symm
          · cases h
        · split at h
          · exact (Option.some.inj h).symm
          · cases h
        · exact (Option.some.inj h).symm
        · cases h
      rw [hmember, hbool, Builtin.call_binary]
      exact BinaryOp.yields_membership x y
    · split at h
      · next hequals =>
        have hbool : ty = .bool := by
          split at h
          · exact (Option.some.inj h).symm
          · cases h
        rw [hbool]
        rcases hequals with rfl | rfl
        · rw [Builtin.call_binary]
          exact .ok rfl
        · rw [Builtin.call_binary]
          exact .ok rfl
      · split at h
        · next hadd =>
          split at h
          · rw [hadd, ← Option.some.inj h, Builtin.call_binary]
            exact yields_add_lists ha hb
          · cases h
        · cases h

/-- An operator that is typed by the shapes of its operands gives only values of that type. -/
theorem yields_structural (h : structural? function types = some ty)
    (hargs : HoldsAll types args) :
    Yields (fun v => ty.holds v = true) (Builtin.call function args) := by
  match types, args, hargs with
  | [a, b], [x, y], .cons ha (.cons hb .nil) => exact yields_structural_pair h ha hb
  | [a, b, c], [x, y, z], _ =>
    have hconditional : function = Operator.conditional := by
      simp only [structural?] at h
      split at h
      · assumption
      · cases h
    -- The conditional chooses between evaluations, so as a function of values it gives nothing.
    have hname : Builtin.ofName? Operator.conditional = some .conditional := by decide
    unfold Builtin.call
    rw [hconditional, hname]
    exact Yields.refused _ _
  | [], _, _ => cases h
  | [_], _, _ => cases h
  | _ :: _ :: _ :: _ :: _, _, _ => cases h

end Ty

namespace Declarations

variable {declared : Table String Ty} {function : String} {types : List Ty} {args : List Value}
  {member : Bool} {ty : Ty}

/-- A call is typed by the shapes of its operands or by the overloads of a declaration. -/
theorem callType_spec {d : Declarations} (h : d.callType function types member = .ok ty) :
    (member = false ∧ Ty.structural? function types = some ty) ∨
      ∃ f ∈ d.functions, f.name = function ∧ f.resolve? types member = some ty := by
  unfold callType at h
  split at h
  · next found hfound =>
    cases member with
    | true => cases hfound
    | false =>
      cases h
      exact Or.inl ⟨rfl, hfound⟩
  · split at h
    · cases h
    · split at h
      · cases h
      · next f hf =>
        split at h
        · next found hfound =>
          cases h
          unfold function? at hf
          -- The declaration that was found has the name of the call.
          have hname := List.find?_some hf
          exact Or.inr ⟨f, List.mem_of_find?_eq_some hf, beq_iff_eq.mp hname, hfound⟩
        · cases h

/-- A call that has a type gives only values of the type. -/
theorem callType_yields
    (h : Declarations.callType ⟨standardFunctions, declared⟩ function types member = .ok ty)
    (hargs : Ty.HoldsAll types args) :
    Yields (fun v => ty.holds v = true) (Builtin.call function args) := by
  rcases callType_spec h with ⟨-, hstructural⟩ | ⟨f, hf, rfl, hresolve⟩
  · exact Ty.yields_structural hstructural hargs
  · exact covers_standardFunctions f hf types args member ty hresolve hargs

/-- A conditional has the joined type of its branches. -/
theorem callType_conditional {d : Declarations} {a b c : Ty}
    (h : d.callType Operator.conditional [a, b, c] false = .ok ty) : ty = b.join c := by
  unfold callType Ty.structural? at h
  have hstructural : (!false && Operator.isStructural Operator.conditional) = true := by decide
  rw [hstructural] at h
  cases haccepts : Ty.bool.accepts a with
  | true =>
    simp only [haccepts, Bool.false_eq_true, if_true, if_false] at h
    cases h
    rfl
  | false =>
    simp only [haccepts, Bool.false_eq_true, if_true, if_false] at h
    cases h

/-- The connectives are not typed by the shapes of their operands. -/
theorem structural?_connective {op : BinaryOp} (hop : op = .and ∨ op = .or) (types : List Ty) :
    Ty.structural? op.function types = none := by
  -- The names of the connectives are none of those for which the shapes decide.
  have hnames : op.function ≠ Operator.index ∧ op.function ≠ BinaryOp.member.function ∧
      ¬(op.function = BinaryOp.equals.function ∨ op.function = BinaryOp.notEquals.function) ∧
      op.function ≠ BinaryOp.add.function ∧ op.function ≠ Operator.conditional := by
    rcases hop with rfl | rfl
    · decide
    · decide
  obtain ⟨hindex, hmember, hequals, hadd, hconditional⟩ := hnames
  unfold Ty.structural?
  split
  · rw [if_neg hindex, if_neg hmember, if_neg hequals, if_neg hadd]
  · rw [if_neg hconditional]
  · rfl

/-- A connective is of a type that has the truth values. -/
theorem callType_connective {op : BinaryOp} (hop : op = .and ∨ op = .or)
    (h : Declarations.callType ⟨standardFunctions, declared⟩ op.function types false = .ok ty)
    {v : Value} (hv : Ty.bool.holds v = true) : ty.holds v = true := by
  have hresults : ∀ f ∈ standardFunctions,
      f.name = BinaryOp.and.function ∨ f.name = BinaryOp.or.function →
        ∀ o ∈ f.overloads, o.result = .bool := by decide +kernel
  rcases callType_spec h with ⟨-, hstructural⟩ | ⟨f, hf, hname, hresolve⟩
  · rw [structural?_connective hop] at hstructural
    cases hstructural
  · obtain ⟨⟨o, ho, haccepts⟩, hall⟩ := Declaration.resolve?_spec hresolve
    apply hall o ho haccepts
    rw [hresults f hf (by rcases hop with rfl | rfl <;> simp only [hname, true_or, or_true]) o ho]
    exact hv

end Declarations

end CelShell
