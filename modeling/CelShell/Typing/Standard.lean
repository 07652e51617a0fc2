import CelShell.Expr.Operator
import CelShell.Typing.Declaration

/-!
# Standard declarations

The operators and functions that every environment declares. Equality, membership, indexing, the
conditional and the concatenation of lists are typed by shape and are not listed here.
-/

namespace CelShell.Declarations

/-- An overload that is called without a target. -/
def globalOverload (id : String) (params : List Ty) (result : Ty) : Overload :=
  ⟨id, params, result, false⟩

/-- An overload that is called on a target. -/
def memberOverload (id : String) (params : List Ty) (result : Ty) : Overload :=
  ⟨id, params, result, true⟩

/-- The numbers with their names in ids. -/
def numbers : List (String × Ty) := [("int64", .int), ("uint64", .uint), ("double", .double)]

/-- The integers with their names in ids. -/
def integers : List (String × Ty) := [("int64", .int), ("uint64", .uint)]

/-- The types that have an order, with their names in ids. -/
def ordered : List (String × Ty) := [("bool", .bool)] ++ numbers ++ [("string", .string)]

/-- An arithmetic operator: two operands of one type give a result of that type. -/
def arithmetic (stem : String) (operands : List (String × Ty)) : List Overload :=
  operands.map fun (tag, ty) => globalOverload (stem ++ "_" ++ tag) [ty, ty] ty

/-- An ordering: two operands of one type compare. -/
def ordering (stem : String) : List Overload :=
  ordered.map fun (tag, ty) =>
    globalOverload (stem ++ "_" ++ tag) [ty, ty] .bool

/-- A test of a text for a part of it. -/
def textTest (stem : String) : List Overload :=
  [memberOverload (stem ++ "_string") [.string, .string] .bool]

/-- A conversion to a type from some types. -/
def conversion (function : String) (result : Ty) (sources : List (String × Ty)) : Declaration :=
  ⟨function, sources.map fun (tag, ty) => globalOverload (tag ++ "_to_" ++ function) [ty] result⟩

/-- Lists of anything. -/
def anyList : Ty := .list .dyn

/-- Maps of anything. -/
def anyMap : Ty := .map .dyn .dyn

/-- The functions of every environment. -/
def standardFunctions : List Declaration :=
  [⟨BinaryOp.add.function,
      arithmetic "add" numbers ++ [globalOverload "add_string" [.string, .string] .string]⟩,
    ⟨BinaryOp.subtract.function, arithmetic "subtract" numbers⟩,
    ⟨BinaryOp.multiply.function, arithmetic "multiply" numbers⟩,
    ⟨BinaryOp.divide.function, arithmetic "divide" numbers⟩,
    ⟨BinaryOp.modulo.function, arithmetic "modulo" integers⟩,
    ⟨UnaryOp.negate.function,
      [globalOverload "negate_int64" [.int] .int,
        globalOverload "negate_double" [.double] .double]⟩,
    ⟨UnaryOp.not.function, [globalOverload "logical_not" [.bool] .bool]⟩,
    ⟨BinaryOp.and.function, [globalOverload "logical_and" [.bool, .bool] .bool]⟩,
    ⟨BinaryOp.or.function, [globalOverload "logical_or" [.bool, .bool] .bool]⟩,
    ⟨BinaryOp.less.function, ordering "less"⟩,
    ⟨BinaryOp.lessEquals.function, ordering "less_equals"⟩,
    ⟨BinaryOp.greater.function, ordering "greater"⟩,
    ⟨BinaryOp.greaterEquals.function, ordering "greater_equals"⟩,
    ⟨"size",
      [globalOverload "size_string" [.string] .int, globalOverload "size_list" [anyList] .int,
        globalOverload "size_map" [anyMap] .int, memberOverload "string_size" [.string] .int,
        memberOverload "list_size" [anyList] .int, memberOverload "map_size" [anyMap] .int]⟩,
    ⟨"contains", textTest "contains"⟩,
    ⟨"startsWith", textTest "starts_with"⟩,
    ⟨"endsWith", textTest "ends_with"⟩,
    conversion "int" .int (numbers ++ [("string", .string)]),
    conversion "uint" .uint (numbers ++ [("string", .string)]),
    conversion "double" .double (numbers ++ [("string", .string)]),
    conversion "string" .string (numbers ++ [("string", .string), ("bool", .bool)]),
    conversion "bool" .bool [("bool", .bool), ("string", .string)]]

/-- The declarations of every environment: the standard functions and no variables. -/
def standard : Declarations := ⟨standardFunctions, []⟩

end CelShell.Declarations
