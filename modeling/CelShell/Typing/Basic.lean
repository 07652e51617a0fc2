import CelShell.Token.Basic

/-!
# Types

The static types. Besides the types of values there is `dyn`, the type of which nothing is known:
it is accepted everywhere and accepts everything, at any depth of a list or map type.
-/

namespace CelShell

/-- A type. -/
inductive Ty where
  | null | bool | int | uint | double | string
  /-- Lists, by the type of the elements. -/
  | list (element : Ty)
  /-- Maps, by the types of the keys and of the values. -/
  | map (key value : Ty)
  /-- The type of which nothing is known. -/
  | dyn
  deriving DecidableEq, Repr, Inhabited

namespace Ty

/-- How a type is written. -/
def text : Ty → String
  | null => "null_type"
  | bool => "bool"
  | int => "int"
  | uint => "uint"
  | double => "double"
  | string => "string"
  | list element => "list(" ++ element.text ++ ")"
  | map key value => "map(" ++ key.text ++ ", " ++ value.text ++ ")"
  | dyn => "dyn"

/-- Types as they are listed in messages. -/
def listText (types : List Ty) : String := ", ".intercalate (types.map text)

/-- Whether a value of the second type may stand where one of the first is expected. -/
def accepts : Ty → Ty → Bool
  | dyn, _ => true
  | _, dyn => true
  -- Elements, keys and values are accepted in turn, so `dyn` counts at every depth.
  | list a, list b => a.accepts b
  | map k v, map k' v' => k.accepts k' && v.accepts v'
  | a, b => a == b

/-- The most precise type that covers two: where they differ it is `dyn`. -/
def join : Ty → Ty → Ty
  | list a, list b => list (a.join b)
  | map k v, map k' v' => map (k.join k') (v.join v')
  | a, b => if a = b then a else dyn

/-- The join of several types, `dyn` if there are none. -/
def joinAll : List Ty → Ty
  | [] => dyn
  | first :: rest => rest.foldl join first

/-- Whether values of the type may be keys of a map. -/
def isMapKey : Ty → Bool
  | bool | int | uint | string | dyn => true
  | _ => false

/-- The type of a constant. -/
def ofLiteral : Literal → Ty
  | .null => null
  | .bool _ => bool
  | .int _ => int
  | .uint _ => uint
  | .double _ => double
  | .string _ => string

/-- The type of the fields, if the type has fields. -/
def field? : Ty → Option Ty
  -- A field is the value of a key that is a string.
  | map key value => if key.accepts string then some value else none
  | dyn => some dyn
  | _ => none

/-- The type over which a variable runs when the type is the range of a loop: the elements of a
list, the keys of a map. -/
def item? : Ty → Option Ty
  | list element => some element
  | map key _ => some key
  | dyn => some dyn
  | _ => none

end Ty

end CelShell
