import CelShell.Expr.Basic

/-!
# The functions that an expression calls

`Expr.called` lists them, with or without targets, in the order of the nodes. What a tree means
depends on the names of functions through this list only, so each kind of node has a lemma that
says what it adds.
-/

namespace CelShell.Expr

variable {α : Type}

/-- The functions that an expression calls. -/
def called (e : Expr α) : List String := e.nodes.filterMap function?

/-- The functions that some expressions call. -/
def calledOfList (es : List (Expr α)) : List String := (nodesOfList es).filterMap function?

/-- The functions that the keys and values of entries call. -/
def calledOfEntries (entries : List (Expr α × Expr α)) : List String :=
  (nodesOfEntries entries).filterMap function?

variable (m : α) (e target range body key value : Expr α) (es args : List (Expr α))
  (entries : List (Expr α × Expr α)) (function field var : String) (testOnly : Bool) (loop : Loop)

/-- A selection calls what its operand calls. -/
@[simp]
theorem called_select : (select m e field testOnly).called = e.called := rfl

/-- A call names its function before those that its arguments call. -/
@[simp]
theorem called_call : (call m function args).called = function :: calledOfList args := rfl

/-- A call on a target names its function before those that the target and the arguments call. -/
@[simp]
theorem called_invoke :
    (invoke m target function args).called = function :: (target.called ++ calledOfList args) := by
  simp only [called, calledOfList, nodes, List.filterMap_cons, function?, List.filterMap_append]

/-- A list calls what its elements call. -/
@[simp]
theorem called_list : (list m es).called = calledOfList es := rfl

/-- A map calls what its keys and values call. -/
@[simp]
theorem called_map : (map m entries).called = calledOfEntries entries := rfl

/-- A loop calls what its range and its body call. -/
@[simp]
theorem called_comprehension :
    (comprehension m loop var range body).called = range.called ++ body.called := by
  simp only [called, nodes, List.filterMap_cons, function?, List.filterMap_append]

/-- The functions that a list of expressions calls, one expression after the other. -/
@[simp]
theorem calledOfList_cons : calledOfList (e :: es) = e.called ++ calledOfList es := by
  simp only [called, calledOfList, nodesOfList, List.filterMap_append]

/-- The functions that entries call, each key before its value. -/
@[simp]
theorem calledOfEntries_cons :
    calledOfEntries ((key, value) :: entries) =
      key.called ++ value.called ++ calledOfEntries entries := by
  simp only [called, calledOfEntries, nodesOfEntries, List.filterMap_append]

end CelShell.Expr
