import CelShell.Text.Quoted

/-!
# Evaluation errors

Why an evaluation gives no value. `quit` is not a fault: it is how an expression asks the shell to
end, and nothing may hide it.
-/

namespace CelShell

/-- Why a conversion fails. -/
inductive ConversionFault where
  /-- A number of a type is outside the range of another. -/
  | outOfRange (source number target : String)
  /-- A text does not spell a value of a type. -/
  | unreadable (text target : String)
  deriving DecidableEq, Repr

/-- The text of a fault. -/
def ConversionFault.text : ConversionFault → String
  | outOfRange source number target =>
    source ++ " " ++ number ++ " out of " ++ target ++ " range"
  | unreadable text target => "cannot parse " ++ Text.quote text ++ " as " ++ target

/-- Why an evaluation gives no value. -/
inductive EvalError where
  /-- A variable has no value. -/
  | noSuchAttribute (name : String)
  /-- A map has no such key or field. -/
  | noSuchKey (key : String)
  /-- A list has no such index. -/
  | indexOutOfRange (index : String)
  /-- A function does not take arguments of these types. -/
  | noOverload (function : String) (types : List String)
  /-- An integer is divided by zero. -/
  | divisionByZero
  /-- An integer has no remainder by zero. -/
  | modulusByZero
  /-- A result of integer arithmetic does not fit. -/
  | overflow (unsigned : Bool)
  /-- A conversion fails. -/
  | conversion (fault : ConversionFault)
  /-- A value of a type has no fields. -/
  | noFields (type : String)
  /-- A value of a type cannot be a key. -/
  | keyType (type : String)
  /-- A key is given twice in one map. -/
  | repeatedKey (key : String)
  /-- A value of a type has no elements to run over. -/
  | noItems (type : String)
  /-- A function of the host reports an error. -/
  | host (message : String)
  /-- The expression asks to end the session. -/
  | quit
  deriving DecidableEq, Repr

/-- The text of an error. -/
def EvalError.text : EvalError → String
  | noSuchAttribute name => "no such attribute: " ++ name
  | noSuchKey key => "no such key: " ++ key
  | indexOutOfRange index => "index out of range: " ++ index
  | noOverload function types =>
    "no matching overload for '" ++ function ++ "' applied to '(" ++ ", ".intercalate types
      ++ ")'"
  | divisionByZero => "division by zero"
  | modulusByZero => "modulus by zero"
  | overflow unsigned => (if unsigned then "unsigned integer" else "integer") ++ " overflow"
  | conversion fault => "type conversion error: " ++ fault.text
  | noFields type => "type '" ++ type ++ "' does not support field selection"
  | keyType type => "unsupported map key type: " ++ type
  | repeatedKey key => "repeated map key: " ++ key
  | noItems type => "expression of type '" ++ type ++ "' cannot be the range of a comprehension"
  | host message => message
  | quit => "quit requested"

end CelShell
