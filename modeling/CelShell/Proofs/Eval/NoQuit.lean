import CelShell.Proofs.Eval.Builtin

/-!
# No operation asks to quit

An evaluation can be asked to end the session by a function of the host only: whatever the
operations of the language and its built-in functions refuse, they refuse for another reason.
-/

namespace CelShell

/-- Whether an error is the demand to end the session. -/
def EvalError.isQuit : EvalError → Bool
  | quit => true
  | _ => false

/-- The outcome is not the demand to end the session. -/
def Stays (r : Except EvalError α) : Prop := r ≠ .error .quit

namespace Stays

variable {α β : Type}

/-- A value is not. -/
theorem ok (a : α) : Stays (.ok a) := by
  rintro ⟨⟩

/-- Nor is any other error. -/
theorem error {e : EvalError} (h : e.isQuit = false) : Stays (.error e : Except EvalError α) := by
  rintro ⟨⟩
  cases h

/-- Arguments that a function does not take. -/
theorem refused (function : String) (args : List Value) :
    Stays (refused function args : Except EvalError α) := .error rfl

/-- One outcome after the other. -/
theorem bind {r : Except EvalError α} {f : α → Except EvalError β} (h : Stays r)
    (hf : ∀ a, Stays (f a)) : Stays (r >>= f) := by
  cases r with
  | ok a => exact hf a
  | error e => exact fun he => h (congrArg Except.error (Except.error.inj he))

/-- An outcome whose value is dropped. -/
theorem discard {r : Except EvalError α} (h : Stays r) : Stays (discard r) := by
  cases r with
  | ok a => exact ok _
  | error e => exact fun he => h (congrArg Except.error (Except.error.inj he))

end Stays

/-! ## Values -/

namespace Value

/-- An integer out of range is no end of the session. -/
theorem stays_ofInt (n : Int) : Stays (ofInt n) := by
  unfold ofInt
  split <;> first | exact .ok _ | exact .error rfl

/-- An integer out of the unsigned range is no end of the session. -/
theorem stays_ofUint (n : Int) : Stays (ofUint n) := by
  unfold ofUint
  split <;> first | exact .ok _ | exact .error rfl

/-- The selection of a field is no end of the session. -/
theorem stays_field (name : String) (v : Value) : Stays (v.field name) := by
  unfold field
  repeat' split
  all_goals first | exact .ok _ | exact .error rfl

/-- The test for a field is no end of the session. -/
theorem stays_hasField (name : String) (v : Value) : Stays (v.hasField name) := by
  unfold hasField
  split <;> first | exact .ok _ | exact .error rfl

/-- Indexing is no end of the session. -/
theorem stays_index (container i : Value) : Stays (container.index i) := by
  unfold index
  repeat' split
  all_goals first | exact .ok _ | exact .error rfl

/-! ## Conversions -/

/-- The size of a value is no end of the session. -/
theorem stays_size (v : Value) : Stays v.size := by
  unfold size
  split
  · exact stays_ofInt _
  · exact stays_ofInt _
  · exact stays_ofInt _
  · exact .refused _ _

/-- The conversion to a signed integer is no end of the session. -/
theorem stays_toInt (v : Value) : Stays v.toInt := by
  fun_cases toInt v
  all_goals first | exact .ok _ | exact .error rfl

/-- The conversion to an unsigned integer is no end of the session. -/
theorem stays_toUint (v : Value) : Stays v.toUint := by
  fun_cases toUint v
  all_goals first | exact .ok _ | exact .error rfl

/-- The conversion to a double is no end of the session. -/
theorem stays_toDouble (v : Value) : Stays v.toDouble := by
  fun_cases toDouble v
  all_goals first | exact .ok _ | exact .error rfl

/-- The conversion to a text is no end of the session. -/
theorem stays_toText (v : Value) : Stays v.toText := by
  fun_cases toText v
  all_goals first | exact .ok _ | exact .error rfl

/-- The conversion to a boolean is no end of the session. -/
theorem stays_toBool (v : Value) : Stays v.toBool := by
  fun_cases toBool v
  all_goals first | exact .ok _ | exact .error rfl

end Value

/-! ## Functions -/

namespace BinaryOp

/-- Arithmetic is no end of the session, however its operands are paired. -/
theorem stays_arithmetic (op : BinaryOp) (a b : Value) : Stays (op.arithmetic a b) := by
  unfold arithmetic
  split
  · split
    · exact .error rfl
    · split
      · exact .error rfl
      · split
        · -- A remainder may be refused for the size of its quotient.
          exact (Value.stays_ofInt _).discard.bind fun _ => Value.stays_ofInt _
        · exact Value.stays_ofInt _
  · split
    · exact .error rfl
    · split
      · exact .error rfl
      · exact Value.stays_ofUint _
  · split
    · exact .ok _
    · exact .refused _ _
  · exact .refused _ _

/-- A comparison is no end of the session. -/
theorem stays_ordering (op : BinaryOp) (a b : Value) : Stays (op.ordering a b) := by
  unfold ordering
  split <;> first | exact .ok _ | exact .error rfl

/-- A test for membership is no end of the session. -/
theorem stays_membership (item container : Value) : Stays (membership item container) := by
  unfold membership
  split <;> first | exact .ok _ | exact .error rfl

/-- No operator of two operands ends the session. -/
theorem stays_apply (op : BinaryOp) (a b : Value) : Stays (op.apply a b) := by
  unfold apply
  split
  any_goals first | exact stays_arithmetic _ _ _ | exact stays_ordering _ _ _ | exact .ok _
  · exact .refused _ _
  · exact .refused _ _
  · exact stays_membership _ _
  · split
    · exact .ok _
    · exact .ok _
    · exact stays_arithmetic _ _ _

end BinaryOp

/-- No operator of one operand ends the session. -/
theorem UnaryOp.stays_apply (op : UnaryOp) (v : Value) : Stays (op.apply v) := by
  unfold apply
  split
  · exact .ok _
  · exact Value.stays_ofInt _
  · exact .ok _
  · exact .refused _ _

/-- No function of the core ends the session, whatever the number of its arguments. -/
theorem CoreFunction.stays_apply (f : CoreFunction) (args : List Value) :
    Stays (f.apply args) := by
  unfold apply
  split
  · exact Value.stays_size _
  · exact .ok _
  · exact .ok _
  · exact .ok _
  · exact Value.stays_toInt _
  · exact Value.stays_toUint _
  · exact Value.stays_toDouble _
  · exact Value.stays_toText _
  · exact Value.stays_toBool _
  · exact .refused _ _

namespace Builtin

/-- No built-in function ends the session. -/
theorem stays_apply (b : Builtin) (args : List Value) : Stays (b.apply args) := by
  unfold apply
  split
  · exact BinaryOp.stays_apply _ _ _
  · exact UnaryOp.stays_apply _ _
  · exact Value.stays_index _ _
  · exact CoreFunction.stays_apply _ _
  · exact .refused _ _

/-- No built-in function asks to end the session. -/
theorem stays_call (function : String) (args : List Value) : Stays (call function args) := by
  unfold call
  split
  · exact stays_apply _ _
  · exact .refused _ _

end Builtin

end CelShell
