import CelShell.Expr.Operator

/-!
# Expressions

The trees of the language. Every node carries a mark of a type of the user's choice: the parser
marks nodes with their number and place, and a tree marked with `Unit` is a bare shape. Operators
are calls with reserved names, so there are few kinds of nodes.
-/

namespace CelShell

/-- The macros that run a body over the elements of a range. -/
inductive Loop where
  /-- Whether the body holds of every element. -/
  | all
  /-- Whether the body holds of some element. -/
  | any
  /-- Whether the body holds of exactly one element. -/
  | one
  /-- The values of the body. -/
  | map
  /-- The elements of which the body holds. -/
  | filter
  deriving DecidableEq, Repr

namespace Loop

/-- The name under which a macro is called. -/
def name : Loop → String
  | all => "all"
  | any => "exists"
  | one => "exists_one"
  | map => "map"
  | filter => "filter"

/-- The macro of a name. -/
def ofName? (name : String) : Option Loop :=
  [all, any, one, map, filter].find? fun l => l.name == name

/-- Whether the body has to be a truth value. -/
def isPredicate (l : Loop) : Bool := l != map

end Loop

/-- An expression whose nodes carry marks. -/
inductive Expr (α : Type) where
  /-- A variable. -/
  | ident (mark : α) (name : String)
  /-- A constant. -/
  | literal (mark : α) (value : Literal)
  /-- A field of the operand, or a test whether it has the field. -/
  | select (mark : α) (operand : Expr α) (field : String) (testOnly : Bool)
  /-- A call of a function. -/
  | call (mark : α) (function : String) (args : List (Expr α))
  /-- A call of a function on a target, the receiver. -/
  | invoke (mark : α) (target : Expr α) (function : String) (args : List (Expr α))
  /-- A list of its elements. -/
  | list (mark : α) (elements : List (Expr α))
  /-- A map of its keys and values. -/
  | map (mark : α) (entries : List (Expr α × Expr α))
  /-- A macro that runs a body over a range, with a variable for the element. -/
  | comprehension (mark : α) (loop : Loop) (var : String) (range body : Expr α)
  deriving Inhabited

namespace Expr

/-- The mark of the root. -/
def mark : Expr α → α
  | ident m _ | literal m _ | select m _ _ _ | call m _ _ | invoke m _ _ _ | list m _ | map m _
  | comprehension m _ _ _ _ => m

mutual

/-- The same tree with other marks. -/
def remark (f : α → β) : Expr α → Expr β
  | ident m name => ident (f m) name
  | literal m value => literal (f m) value
  | select m operand field testOnly => select (f m) (remark f operand) field testOnly
  | call m function args => call (f m) function (remarkList f args)
  | invoke m target function args =>
    invoke (f m) (remark f target) function (remarkList f args)
  | list m elements => list (f m) (remarkList f elements)
  | map m entries => map (f m) (remarkEntries f entries)
  | comprehension m loop var range body =>
    comprehension (f m) loop var (remark f range) (remark f body)

/-- The same trees with other marks. -/
def remarkList (f : α → β) : List (Expr α) → List (Expr β)
  | [] => []
  | e :: rest => remark f e :: remarkList f rest

/-- The same entries with other marks. -/
def remarkEntries (f : α → β) : List (Expr α × Expr α) → List (Expr β × Expr β)
  | [] => []
  | (k, v) :: rest => (remark f k, remark f v) :: remarkEntries f rest

end

/-- The bare shape of a tree. -/
def bare (e : Expr α) : Expr Unit := e.remark fun _ => ()

mutual

/-- Whether two trees have the same shape, whatever their marks. Constants are compared as by
`Literal.same`. -/
def same : Expr α → Expr β → Bool
  | ident _ a, ident _ b => a == b
  | literal _ a, literal _ b => a.same b
  | select _ e f t, select _ e' f' t' => e.same e' && f == f' && t == t'
  | call _ f as, call _ f' as' => f == f' && sameList as as'
  | invoke _ e f as, invoke _ e' f' as' => e.same e' && f == f' && sameList as as'
  | list _ as, list _ as' => sameList as as'
  | map _ es, map _ es' => sameEntries es es'
  | comprehension _ l v r b, comprehension _ l' v' r' b' =>
    l == l' && v == v' && r.same r' && b.same b'
  | _, _ => false

/-- Whether two lists of trees have the same shapes. -/
def sameList : List (Expr α) → List (Expr β) → Bool
  | [], [] => true
  | e :: rest, e' :: rest' => e.same e' && sameList rest rest'
  | _, _ => false

/-- Whether two lists of entries have the same shapes. -/
def sameEntries : List (Expr α × Expr α) → List (Expr β × Expr β) → Bool
  | [], [] => true
  | (k, v) :: rest, (k', v') :: rest' => k.same k' && v.same v' && sameEntries rest rest'
  | _, _ => false

end

mutual

/-- The node and all below it, each before its children and the children in source order. -/
def nodes : Expr α → List (Expr α)
  | e@(ident _ _) | e@(literal _ _) => [e]
  | e@(select _ operand _ _) => e :: operand.nodes
  | e@(call _ _ args) => e :: nodesOfList args
  | e@(invoke _ target _ args) => e :: (target.nodes ++ nodesOfList args)
  | e@(list _ elements) => e :: nodesOfList elements
  | e@(map _ entries) => e :: nodesOfEntries entries
  | e@(comprehension _ _ _ range body) => e :: (range.nodes ++ body.nodes)

/-- The nodes of a list of trees. -/
def nodesOfList : List (Expr α) → List (Expr α)
  | [] => []
  | e :: rest => e.nodes ++ nodesOfList rest

/-- The nodes of a list of entries, a key before its value. -/
def nodesOfEntries : List (Expr α × Expr α) → List (Expr α)
  | [] => []
  | (k, v) :: rest => k.nodes ++ v.nodes ++ nodesOfEntries rest

end

/-- The function that a node calls, with or without a target. -/
def function? : Expr α → Option String
  | call _ function _ | invoke _ _ function _ => some function
  | _ => none

/-- Whether the root calls a function without a target. -/
def isCallTo (name : String) : Expr α → Bool
  | call _ function _ => function == name
  | _ => false

end Expr

/-- What the parser knows of a node. -/
structure Mark where
  /-- The number of the node, unique in its tree and counted from one. -/
  id : Nat
  /-- Where the node stands in the source. -/
  span : Span
  deriving DecidableEq, Repr, Inhabited

/-- An expression with its numbers and places. -/
abbrev Tree := Expr Mark

end CelShell
