import CelShell.Table
import CelShell.Typing.Basic

/-!
# Declarations

A function is declared with overloads. A call resolves to all overloads whose style and parameters
accept the arguments; several can when an argument is `dyn`, and then the results are joined. A
repeated declaration adds overloads and never changes one: the id of an overload stands for its
signature.
-/

namespace CelShell

/-- One signature of a function. -/
structure Overload where
  /-- The name of the signature, unique in its function. -/
  id : String
  /-- The types of the arguments, the target first if there is one. -/
  params : List Ty
  /-- The type of the result. -/
  result : Ty
  /-- Whether the function is called on a target. -/
  member : Bool
  deriving DecidableEq, Repr, Inhabited

/-- Whether types accept arguments one by one. -/
def Ty.acceptsAll : List Ty → List Ty → Bool
  | [], [] => true
  | param :: params, arg :: args => param.accepts arg && acceptsAll params args
  | _, _ => false

/-- Whether an overload can be called on arguments. -/
def Overload.accepts (o : Overload) (args : List Ty) (member : Bool) : Bool :=
  o.member == member && Ty.acceptsAll o.params args

/-- A function by its name and overloads. -/
structure Declaration where
  /-- The name. -/
  name : String
  /-- The overloads. -/
  overloads : List Overload
  deriving DecidableEq, Repr, Inhabited

namespace Declaration

/-- The type of a call, the join over all overloads that accept the arguments. -/
def resolve? (d : Declaration) (args : List Ty) (member : Bool) : Option Ty :=
  match d.overloads.filter fun o => o.accepts args member with
  | [] => none
  | o :: rest => some (Ty.joinAll ((o :: rest).map Overload.result))

/-- One more overload, unless its id is taken. -/
def addOverload (overloads : List Overload) (o : Overload) : List Overload :=
  if overloads.any fun p => p.id == o.id then overloads else overloads ++ [o]

/-- More overloads; those whose ids are taken are left out. -/
def merge (d : Declaration) (more : List Overload) : Declaration :=
  { d with overloads := more.foldl addOverload d.overloads }

/-- The first overload of a list whose id the function has with another signature. -/
def conflict? (d : Declaration) (more : List Overload) : Option Overload :=
  more.find? fun o => d.overloads.any fun p => p.id == o.id && p != o

end Declaration

/-- Why a declaration is refused. -/
inductive DeclareError where
  /-- The id of an overload is taken by another signature. -/
  | overloadConflict (function id : String)
  /-- A function has no overloads. -/
  | emptyDeclaration (function : String)
  /-- A variable has another type. -/
  | variableConflict (name : String) (existing : Ty)
  deriving DecidableEq, Repr

/-- The text of a refusal. -/
def DeclareError.text : DeclareError → String
  | overloadConflict function id =>
    "overload '" ++ id ++ "' of function '" ++ function
      ++ "' is already declared with a different signature"
  | emptyDeclaration function => "function '" ++ function ++ "' declared without overloads"
  | variableConflict name existing =>
    "variable '" ++ name ++ "' is already declared as " ++ existing.text

/-- What names stand for in expressions. -/
structure Declarations where
  /-- The functions, in the order of their first declarations. -/
  functions : List Declaration
  /-- The types of the variables. -/
  variableTypes : Table String Ty
  deriving DecidableEq, Repr, Inhabited

namespace Declarations

/-- The declaration of a function. -/
def function? (d : Declarations) (name : String) : Option Declaration :=
  d.functions.find? fun f => f.name == name

/-- The names of the functions, in order. -/
def functionNames (d : Declarations) : List String := d.functions.map Declaration.name

/-- Adds overloads to the function of a name. -/
def mergeInto (functions : List Declaration) (name : String) (more : List Overload) :
    List Declaration :=
  functions.map fun f => if f.name = name then f.merge more else f

/-- Declares a function, or more overloads of it. -/
def declare (d : Declarations) (f : Declaration) : Except DeclareError Declarations :=
  if f.overloads.isEmpty then .error (.emptyDeclaration f.name)
  else
    match d.function? f.name with
    -- A new function is taken as it is, without a look at its own overloads.
    | none => .ok { d with functions := d.functions ++ [f] }
    | some existing =>
      match existing.conflict? f.overloads with
      | some o => .error (.overloadConflict f.name o.id)
      | none => .ok { d with functions := mergeInto d.functions f.name f.overloads }

/-- Declares functions one after the other. -/
def declareAll (d : Declarations) (fs : List Declaration) : Except DeclareError Declarations :=
  fs.foldlM declare d

/-- Declares a variable. -/
def declareVariable (d : Declarations) (name : String) (ty : Ty) :
    Except DeclareError Declarations :=
  match d.variableTypes.get? name with
  | some existing =>
    -- The same declaration once more changes nothing.
    if existing = ty then .ok d else .error (.variableConflict name existing)
  | none => .ok { d with variableTypes := d.variableTypes.insert name ty }

end Declarations

end CelShell
