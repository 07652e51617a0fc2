import CelShell.Proofs.Eval.Builtin
import CelShell.Proofs.Eval.Safety

/-!
# What built-in functions take

For each built-in function the values on which it is safe: it gives a result there, or an error that
depends on the values and not on their types. The connectives and the conditional are not among
them, since they are no functions of values.
-/

namespace CelShell

namespace Value

variable {v : Value}

/-- An integer as an int. -/
theorem safe_ofInt (n : Int) : Safe (ofInt n) := by
  unfold ofInt
  split
  · exact .ok _
  · exact .error rfl

/-- An integer as a uint. -/
theorem safe_ofUint (n : Int) : Safe (ofUint n) := by
  unfold ofUint
  split
  · exact .ok _
  · exact .error rfl

/-- Texts, lists and maps have a size. -/
theorem safe_size (h : [Ty.string, .list .dyn, .map .dyn .dyn].any (·.holds v) = true) :
    Safe v.size := by
  fun_cases size v with
  | case1 | case2 | case3 => exact safe_ofInt _
  | case4 => cases v <;> simp_all [Ty.holds]

/-- Numbers and texts are converted to int. -/
theorem safe_toInt (h : [Ty.int, .uint, .double, .string].any (·.holds v) = true) :
    Safe v.toInt := by
  fun_cases toInt v with
  | case1 | case2 | case4 | case6 => exact .ok _
  | case3 | case5 | case7 => exact .error rfl
  | case8 => cases v <;> simp_all [Ty.holds]

/-- Numbers and texts are converted to uint. -/
theorem safe_toUint (h : [Ty.int, .uint, .double, .string].any (·.holds v) = true) :
    Safe v.toUint := by
  fun_cases toUint v with
  | case1 | case2 | case4 | case6 => exact .ok _
  | case3 | case5 | case7 => exact .error rfl
  | case8 => cases v <;> simp_all [Ty.holds]

/-- Numbers and texts are converted to double. -/
theorem safe_toDouble (h : [Ty.int, .uint, .double, .string].any (·.holds v) = true) :
    Safe v.toDouble := by
  fun_cases toDouble v with
  | case1 | case2 | case3 | case4 => exact .ok _
  | case5 => exact .error rfl
  | case6 => cases v <;> simp_all [Ty.holds]

/-- Numbers, texts and truth values are converted to text. -/
theorem safe_toText (h : [Ty.int, .uint, .double, .string, .bool].any (·.holds v) = true) :
    Safe v.toText := by
  fun_cases toText v with
  | case1 | case2 | case3 | case4 | case5 => exact .ok _
  | case6 => cases v <;> simp_all [Ty.holds]

/-- Truth values and texts are converted to bool. -/
theorem safe_toBool (h : [Ty.bool, .string].any (·.holds v) = true) : Safe v.toBool := by
  fun_cases toBool v with
  | case1 | case2 | case3 => exact .ok _
  | case4 => exact .error rfl
  | case5 => cases v <;> simp_all [Ty.holds]

end Value

namespace BinaryOp

variable {t : Ty} {a b : Value}

/-- Two numbers of one type are computed with, doubles only by the operators that are for them. -/
theorem safe_arithmetic (op : BinaryOp) (ht : t ∈ [Ty.int, .uint, .double])
    (hdouble : t = .double → op.onDoubles?.isSome = true) (ha : t.holds a = true)
    (hb : t.holds b = true) : Safe (op.arithmetic a b) := by
  simp only [List.mem_cons, List.not_mem_nil, or_false] at ht
  rcases ht with rfl | rfl | rfl
  · obtain ⟨x, rfl⟩ := Ty.eq_int_of_holds ha
    obtain ⟨y, rfl⟩ := Ty.eq_int_of_holds hb
    unfold arithmetic
    dsimp only
    split
    · exact .error rfl
    · split
      · exact .error rfl
      · split
        · -- The quotient is computed first, and may be refused for its size.
          have hquotient := Value.safe_ofInt (divide.onIntegers x.toInt y.toInt)
          refine Safe.bindExcept (fun e he => ?_) fun _ _ => Value.safe_ofInt _
          cases hq : Value.ofInt (divide.onIntegers x.toInt y.toInt) with
          | ok v =>
            rw [hq] at he
            cases he
          | error e' =>
            rw [hq] at he
            cases he
            exact hquotient _ hq
        · exact Value.safe_ofInt _
  · obtain ⟨x, rfl⟩ := Ty.eq_uint_of_holds ha
    obtain ⟨y, rfl⟩ := Ty.eq_uint_of_holds hb
    unfold arithmetic
    dsimp only
    split
    · exact .error rfl
    · split
      · exact .error rfl
      · exact Value.safe_ofUint _
  · obtain ⟨x, rfl⟩ := Ty.eq_double_of_holds ha
    obtain ⟨y, rfl⟩ := Ty.eq_double_of_holds hb
    obtain ⟨f, hf⟩ := Option.isSome_iff_exists.mp (hdouble rfl)
    unfold arithmetic
    simp only [hf]
    exact .ok _

/-- Two values of one ordered type compare. -/
theorem isSome_compare? (ht : t ∈ [Ty.bool, .int, .uint, .double, .string])
    (ha : t.holds a = true) (hb : t.holds b = true) : (a.compare? b).isSome = true := by
  simp only [List.mem_cons, List.not_mem_nil, or_false] at ht
  -- The type tells the form of both values, and two of one form are compared.
  rcases ht with rfl | rfl | rfl | rfl | rfl
  · obtain ⟨x, rfl⟩ := Ty.eq_bool_of_holds ha
    obtain ⟨y, rfl⟩ := Ty.eq_bool_of_holds hb
    rfl
  · obtain ⟨x, rfl⟩ := Ty.eq_int_of_holds ha
    obtain ⟨y, rfl⟩ := Ty.eq_int_of_holds hb
    rfl
  · obtain ⟨x, rfl⟩ := Ty.eq_uint_of_holds ha
    obtain ⟨y, rfl⟩ := Ty.eq_uint_of_holds hb
    rfl
  · obtain ⟨x, rfl⟩ := Ty.eq_double_of_holds ha
    obtain ⟨y, rfl⟩ := Ty.eq_double_of_holds hb
    rfl
  · obtain ⟨x, rfl⟩ := Ty.eq_string_of_holds ha
    obtain ⟨y, rfl⟩ := Ty.eq_string_of_holds hb
    rfl

/-- A comparison of two values of one ordered type. -/
theorem safe_ordering (op : BinaryOp) (ht : t ∈ [Ty.bool, .int, .uint, .double, .string])
    (ha : t.holds a = true) (hb : t.holds b = true) : Safe (op.ordering a b) := by
  have hsome := isSome_compare? ht ha hb
  unfold ordering
  split
  · exact .ok _
  · exact .ok _
  · next hnone =>
    rw [hnone] at hsome
    cases hsome

/-- Two numbers of one type are added, and so are two texts. -/
theorem safe_add (ht : t ∈ [Ty.int, .uint, .double, .string]) (ha : t.holds a = true)
    (hb : t.holds b = true) : Safe (add.apply a b) := by
  rcases List.mem_append.mp (show t ∈ [Ty.int, .uint, .double] ++ [.string] from ht) with ht | ht
  · have harithmetic := safe_arithmetic add ht (fun _ => rfl) ha hb
    unfold apply
    dsimp only
    split
    · exact .ok _
    · exact .ok _
    · exact harithmetic
  · -- Texts are put together, which never fails.
    cases List.mem_singleton.mp ht
    obtain ⟨x, rfl⟩ := Ty.eq_string_of_holds ha
    obtain ⟨y, rfl⟩ := Ty.eq_string_of_holds hb
    exact .ok _

end BinaryOp

namespace UnaryOp

/-- A truth value is negated. -/
theorem safe_not {v : Value} (h : Ty.bool.holds v = true) : Safe (not.apply v) := by
  obtain ⟨b, rfl⟩ := Ty.eq_bool_of_holds h
  exact .ok _

/-- An int or a double is negated. -/
theorem safe_negate {v : Value} (h : [Ty.int, .double].any (·.holds v) = true) :
    Safe (negate.apply v) := by
  cases v with
  | int n =>
    unfold apply
    exact Value.safe_ofInt _
  | double d => exact .ok _
  | _ => cases h

end UnaryOp

namespace Value

/-- A list is indexed by an int. -/
theorem safe_index_list (items : List Value) {i : Value} (h : Ty.int.holds i = true) :
    Safe ((list items).index i) := by
  obtain ⟨n, rfl⟩ := Ty.eq_int_of_holds h
  unfold index
  dsimp only [integer?]
  split
  · exact .ok _
  · exact .error rfl

/-- A map is indexed by anything. -/
theorem safe_index_map (entries : List (MapKey × Value)) (i : Value) :
    Safe ((map entries).index i) := by
  unfold index
  dsimp only
  split
  · exact .ok _
  · exact .error rfl

/-- A map is asked for a field. -/
theorem safe_field (name : String) (entries : List (MapKey × Value)) :
    Safe ((map entries).field name) := by
  unfold field
  dsimp only
  split
  · exact .ok _
  · exact .error rfl

end Value

end CelShell
