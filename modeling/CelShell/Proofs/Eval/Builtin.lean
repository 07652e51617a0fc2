import CelShell.Proofs.Eval.Yields

/-!
# What built-in functions yield

For each built-in function the type of its values, and for those of several types also the types
of the arguments that give them. None of them finds a variable missing.
-/

namespace CelShell

namespace Value

/-- An integer that fits is an int. -/
theorem yields_ofInt (n : Int) : Yields (fun v => Ty.int.holds v = true) (ofInt n) := by
  unfold ofInt
  split
  · exact .ok rfl
  · exact .error nofun

/-- An integer that fits is a uint. -/
theorem yields_ofUint (n : Int) : Yields (fun v => Ty.uint.holds v = true) (ofUint n) := by
  unfold ofUint
  split
  · exact .ok rfl
  · exact .error nofun

/-- A size is an int. -/
theorem yields_size (v : Value) : Yields (fun r => Ty.int.holds r = true) v.size := by
  unfold size
  split
  · exact yields_ofInt _
  · exact yields_ofInt _
  · exact yields_ofInt _
  · exact Yields.refused _ _

/-- The conversion to int gives an int. -/
theorem yields_toInt (v : Value) : Yields (fun r => Ty.int.holds r = true) v.toInt := by
  fun_cases toInt v
  · exact .ok rfl
  · exact .ok rfl
  · exact .error nofun
  · exact .ok rfl
  · exact .error nofun
  · exact .ok rfl
  · exact .error nofun
  · exact Yields.refused _ _

/-- The conversion to uint gives a uint. -/
theorem yields_toUint (v : Value) : Yields (fun r => Ty.uint.holds r = true) v.toUint := by
  fun_cases toUint v
  · exact .ok rfl
  · exact .ok rfl
  · exact .error nofun
  · exact .ok rfl
  · exact .error nofun
  · exact .ok rfl
  · exact .error nofun
  · exact Yields.refused _ _

/-- The conversion to double gives a double. -/
theorem yields_toDouble (v : Value) : Yields (fun r => Ty.double.holds r = true) v.toDouble := by
  fun_cases toDouble v
  · exact .ok rfl
  · exact .ok rfl
  · exact .ok rfl
  · exact .ok rfl
  · exact .error nofun
  · exact Yields.refused _ _

/-- The conversion to text gives a text. -/
theorem yields_toText (v : Value) : Yields (fun r => Ty.string.holds r = true) v.toText := by
  fun_cases toText v
  · exact .ok rfl
  · exact .ok rfl
  · exact .ok rfl
  · exact .ok rfl
  · exact .ok rfl
  · exact Yields.refused _ _

/-- The conversion to bool gives a truth value. -/
theorem yields_toBool (v : Value) : Yields (fun r => Ty.bool.holds r = true) v.toBool := by
  fun_cases toBool v
  · exact .ok rfl
  · exact .ok rfl
  · exact .ok rfl
  · exact .error nofun
  · exact Yields.refused _ _

variable {t : Ty} {v : Value}

/-- What a table gives for a key is the value of one of its entries. -/
theorem exists_mem_of_get? {entries : Table MapKey Value} {key : MapKey}
    (h : Table.get? entries key = some v) : ∃ e ∈ entries, e.2 = v := by
  induction entries with
  | nil => cases h
  | cons first rest ih =>
    obtain ⟨k, w⟩ := first
    unfold Table.get? at h
    split at h
    · exact ⟨(k, w), List.mem_cons_self, Option.some.inj h⟩
    · obtain ⟨e, he, heq⟩ := ih h
      exact ⟨e, List.mem_cons_of_mem _ he, heq⟩

/-- The values of a map type are of the type of its values. -/
theorem holds_of_get? {key value : Ty} {entries : Table MapKey Value} {k : MapKey}
    (hentries : (Ty.map key value).holds (.map entries) = true)
    (h : Table.get? entries k = some v) : value.holds v = true := by
  obtain ⟨e, he, rfl⟩ := exists_mem_of_get? h
  exact (Ty.holds_map.mp hentries e he).2

/-- A field is of the type of the fields. -/
theorem yields_field {fieldType : Ty} (name : String) (hfield : t.field? = some fieldType)
    (hv : t.holds v = true) : Yields (fun r => fieldType.holds r = true) (v.field name) := by
  unfold field
  split
  · next entries =>
    split
    · next w hw =>
      -- A type with fields is that of maps, or `dyn`.
      apply Yields.ok
      unfold Ty.field? at hfield
      split at hfield
      · next key value =>
        split at hfield
        · rw [← Option.some.inj hfield]
          exact holds_of_get? hv hw
        · cases hfield
      · rw [← Option.some.inj hfield]
        rfl
      · cases hfield
    · exact .error nofun
  · exact .error nofun

/-- A test for a field gives a truth value. -/
theorem yields_hasField (name : String) (v : Value) :
    Yields (fun r => Ty.bool.holds r = true) (v.hasField name) := by
  unfold hasField
  split
  · exact .ok rfl
  · exact .error nofun

/-- The items of a value are of the type of the items. -/
theorem holds_of_items? {itemType : Ty} {items : List Value} (hitem : t.item? = some itemType)
    (hv : t.holds v = true) (h : v.items? = some items) :
    ∀ item ∈ items, itemType.holds item = true := by
  unfold Ty.item? at hitem
  split at hitem
  · next element =>
    obtain ⟨all, rfl, hall⟩ := Ty.eq_list_of_holds hv
    rw [← Option.some.inj hitem, ← Option.some.inj h]
    exact hall
  · next key value =>
    obtain ⟨entries, rfl, hentries⟩ := Ty.eq_map_of_holds hv
    rw [← Option.some.inj hitem, ← Option.some.inj h]
    exact List.forall_mem_map.mpr fun e he => (hentries e he).1
  · -- The items of what has any type may be anything.
    rw [← Option.some.inj hitem]
    exact fun _ _ => rfl
  · cases hitem

end Value

namespace BinaryOp

/-- A value that is not used yields nothing but its errors. -/
theorem yields_discard {P : Value → Prop} {r : Except EvalError Value} (h : Yields P r) :
    Yields (fun _ => True) (discard r) := by
  cases h with
  | ok _ => exact .ok trivial
  | error h => exact .error h

/-- Arithmetic takes two numbers of one type and gives one of that type. -/
theorem yields_arithmetic (op : BinaryOp) (a b : Value) :
    Yields (fun v => ∃ t ∈ [Ty.int, .uint, .double],
      t.holds a = true ∧ t.holds b = true ∧ t.holds v = true ∧
        (t = .double → op.onDoubles?.isSome = true)) (op.arithmetic a b) := by
  unfold arithmetic
  split
  · next x y =>
    have hint : ∀ n, Yields (fun v => ∃ t ∈ [Ty.int, .uint, .double],
        t.holds (.int x) = true ∧ t.holds (.int y) = true ∧ t.holds v = true ∧
          (t = .double → op.onDoubles?.isSome = true)) (Value.ofInt n) := fun n =>
      (Value.yields_ofInt n).mono fun v hv => ⟨.int, by decide, rfl, rfl, hv, nofun⟩
    split
    · exact .error nofun
    · split
      · exact .error nofun
      · split
        · -- The quotient may be refused, and only for its size.
          exact (yields_discard (Value.yields_ofInt _)).bindExcept fun _ _ => hint _
        · exact hint _
  · split
    · exact .error nofun
    · split
      · exact .error nofun
      · exact (Value.yields_ofUint _).mono fun v hv => ⟨.uint, by decide, rfl, rfl, hv, nofun⟩
  · next x y =>
    split
    · next f hf => exact .ok ⟨.double, by decide, rfl, rfl, rfl, fun _ => by rw [hf]; rfl⟩
    · exact Yields.refused _ _
  · exact Yields.refused _ _

/-- A comparison gives a truth value. -/
theorem yields_ordering (op : BinaryOp) (a b : Value) :
    Yields (fun v => Ty.bool.holds v = true) (op.ordering a b) := by
  unfold ordering
  split
  · exact .ok rfl
  · exact .ok rfl
  · exact Yields.refused _ _

/-- A test for membership gives a truth value. -/
theorem yields_membership (item container : Value) :
    Yields (fun v => Ty.bool.holds v = true) (membership item container) := by
  unfold membership
  split
  · exact .ok rfl
  · exact .ok rfl
  · exact Yields.refused _ _

/-- Besides numbers, texts and lists can be added. -/
theorem yields_add (a b : Value) :
    Yields (fun v =>
      (∃ t ∈ [Ty.int, .uint, .double, .string],
        t.holds a = true ∧ t.holds b = true ∧ t.holds v = true) ∨
      ∃ xs ys, a = .list xs ∧ b = .list ys ∧ v = .list (xs ++ ys)) (add.apply a b) := by
  unfold apply
  dsimp only
  split
  · exact .ok (Or.inl ⟨.string, by decide, rfl, rfl, rfl⟩)
  · next xs ys => exact .ok (Or.inr ⟨xs, ys, rfl, rfl, rfl⟩)
  · refine (yields_arithmetic add a b).mono fun v hv => Or.inl ?_
    obtain ⟨t, ht, ha, hb, hv, -⟩ := hv
    exact ⟨t, List.mem_append_left [Ty.string] ht, ha, hb, hv⟩

end BinaryOp

namespace UnaryOp

/-- The negation of a truth value is a truth value. -/
theorem yields_not (v : Value) : Yields (fun r => Ty.bool.holds r = true) (not.apply v) := by
  cases v with
  | bool b => exact .ok rfl
  | _ => exact Yields.refused _ _

/-- The negative of an int is an int and that of a double is a double. -/
theorem yields_negate (v : Value) :
    Yields (fun r => ∃ t ∈ [Ty.int, .double], t.holds v = true ∧ t.holds r = true)
      (negate.apply v) := by
  cases v with
  | int n => exact (Value.yields_ofInt _).mono fun r hr => ⟨.int, by decide, rfl, hr⟩
  | double d => exact .ok ⟨.double, by decide, rfl, rfl⟩
  | _ => exact Yields.refused _ _

end UnaryOp

namespace CoreFunction

/-- The type of what a function gives. -/
def resultType : CoreFunction → Ty
  | size | int => .int
  | contains | startsWith | endsWith | bool => .bool
  | uint => .uint
  | double => .double
  | string => .string

/-- A function gives values of one type. -/
theorem yields_apply (f : CoreFunction) (args : List Value) :
    Yields (fun v => f.resultType.holds v = true) (f.apply args) := by
  unfold apply
  split
  · exact Value.yields_size _
  · exact .ok rfl
  · exact .ok rfl
  · exact .ok rfl
  · exact Value.yields_toInt _
  · exact Value.yields_toUint _
  · exact Value.yields_toDouble _
  · exact Value.yields_toText _
  · exact Value.yields_toBool _
  · exact Yields.refused _ _

end CoreFunction

namespace Value

/-- An element of a list is of the type of the elements. -/
theorem yields_index_list {element : Ty} {items : List Value} (i : Value)
    (hitems : ∀ item ∈ items, element.holds item = true) :
    Yields (fun v => element.holds v = true) ((list items).index i) := by
  unfold index
  dsimp only
  split
  · split
    · next v hv =>
      apply Yields.ok
      -- A negative index finds nothing, so what was found is an element.
      split at hv
      · exact hitems v (List.mem_of_getElem? hv)
      · cases hv
    · exact .error nofun
  · exact Yields.refused _ _

/-- A value of a map is of the type of the values. -/
theorem yields_index_map {key value : Ty} {entries : List (MapKey × Value)} (i : Value)
    (hentries : (Ty.map key value).holds (.map entries) = true) :
    Yields (fun v => value.holds v = true) ((map entries).index i) := by
  unfold index
  dsimp only
  split
  · next v hv =>
    obtain ⟨k, -, hk⟩ := Option.bind_eq_some_iff.mp hv
    exact .ok (holds_of_get? hentries hk)
  · exact .error nofun

/-- Indexing yields something or other. -/
theorem yields_index (container i : Value) : Yields (fun _ => True) (container.index i) := by
  cases container with
  | list items =>
    have hitems : ∀ item ∈ items, Ty.dyn.holds item = true := fun _ _ => rfl
    exact (yields_index_list i hitems).of_anything
  | map entries =>
    have hentries : (Ty.map .dyn .dyn).holds (.map entries) = true :=
      Ty.holds_map.mpr fun _ _ => ⟨rfl, rfl⟩
    exact (yields_index_map i hentries).of_anything
  | _ => exact Yields.refused _ _

end Value

namespace Builtin

/-- The name of an operator with two operands is that of a built-in function. -/
theorem call_binary (op : BinaryOp) (args : List Value) :
    call op.function args = apply (.binary op) args := by
  have h : ofName? op.function = some (.binary op) := by cases op <;> decide
  unfold call
  rw [h]

/-- The name of an operator with one operand is that of a built-in function. -/
theorem call_unary (op : UnaryOp) (args : List Value) :
    call op.function args = apply (.unary op) args := by
  have h : ofName? op.function = some (.unary op) := by cases op <;> decide
  unfold call
  rw [h]

/-- The name of a function is that of a built-in function. -/
theorem call_core (f : CoreFunction) (args : List Value) :
    call f.name args = f.apply args := by
  have h : ofName? f.name = some (.core f) := by cases f <;> decide
  unfold call
  rw [h]
  rfl

/-- Indexing is a built-in function. -/
theorem call_index (args : List Value) : call Operator.index args = apply .index args := by
  have h : ofName? Operator.index = some .index := by decide
  unfold call
  rw [h]

/-- An operator with two operands takes no other number of arguments. -/
theorem yields_binary {P : Value → Prop} {op : BinaryOp} {args : List Value}
    (h : ∀ a b, args = [a, b] → Yields P (op.apply a b)) : Yields P (call op.function args) := by
  rw [call_binary]
  match args with
  | [a, b] => exact h a b rfl
  | [] => exact Yields.refused _ _
  | [_] => exact Yields.refused _ _
  | _ :: _ :: _ :: _ => exact Yields.refused _ _

/-- An operator with one operand takes no other number of arguments. -/
theorem yields_unary {P : Value → Prop} {op : UnaryOp} {args : List Value}
    (h : ∀ v, args = [v] → Yields P (op.apply v)) : Yields P (call op.function args) := by
  rw [call_unary]
  match args with
  | [v] => exact h v rfl
  | [] => exact Yields.refused _ _
  | _ :: _ :: _ => exact Yields.refused _ _

end Builtin

end CelShell
