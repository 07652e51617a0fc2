import CelShell.Proofs.Eval.Trace
import CelShell.Proofs.Expr.Renaming
import CelShell.Typing.Check

/-!
# The names of loop variables do not matter

An evaluation and a type check walk a tree with a scope that holds the variables of the loops around
the current node. Two walks over trees that are equal but for the names of these variables keep
scopes in which partners have the same entry, so they come to the same result
(`Expr.AlphaEq.evaluate_eq`, `Expr.AlphaEq.infer_eq`). A name that no loop gives an entry is its own
partner, so both walks look it up under one name outside.
-/

namespace CelShell

namespace Expr

/-! ## Evaluation -/

section

variable {α : Type} {m : Type → Type} [Monad m] (i : Interface m)

mutual

/-- Trees that are equal but for the names of loop variables have the same evaluation. -/
theorem AlphaEq.evaluate_eq : {e e' : Expr α} → {vars : List (String × String)} →
    AlphaEq vars e e' → {s s' : Table String Value} → Table.Agree vars s s' →
    e.evaluate i s = e'.evaluate i s'
  | .ident _ n, _, _, .ident _ h, s, s', hs => by
    obtain ⟨hentry, rfl | ⟨v, hv⟩⟩ := hs _ _ h
    · unfold evaluate
      rw [hentry]
    · -- An entry of the scope comes before the value of a variable.
      unfold evaluate
      rw [← hentry, hv]
      rfl
  | .literal .., _, _, .literal .., _, _, _ => rfl
  | .select .., _, _, .select _ _ _ h, _, _, hs => by
    unfold evaluate
    rw [h.evaluate_eq hs]
  | .call .., _, _, .call _ _ h, _, _, hs => by
    unfold evaluate
    rw [h.suspended_eq hs]
  | .invoke .., _, _, .invoke _ _ htarget hargs, _, _, hs => by
    unfold evaluate
    rw [htarget.evaluate_eq hs, hargs.suspended_eq hs]
  | .list .., _, _, .list _ h, _, _, hs => by
    unfold evaluate
    rw [h.suspended_eq hs]
  | .map .., _, _, .map _ h, _, _, hs => by
    unfold evaluate
    rw [h.suspendedEntries_eq hs]
  | .comprehension .., _, _, .comprehension _ _ x y hrange hbody, _, _, hs => by
    have hitem := fun item => hbody.evaluate_eq (hs.cons x y item)
    unfold evaluate
    simp only [hrange.evaluate_eq hs, hitem]

/-- Lists that differ in bound names give the same computations where the bound names agree. -/
theorem AlphaEqList.suspended_eq : {es es' : List (Expr α)} → {vars : List (String × String)} →
    AlphaEqList vars es es' → {s s' : Table String Value} → Table.Agree vars s s' →
    suspended i s es = suspended i s' es'
  | [], _, _, .nil, _, _, _ => rfl
  | _ :: _, _, _, .cons h hrest, _, _, hs => by
    unfold suspended
    rw [h.evaluate_eq hs, hrest.suspended_eq hs]

/-- Entries that differ in bound names give the same computations where the bound names agree. -/
theorem AlphaEqEntries.suspendedEntries_eq : {entries entries' : List (Expr α × Expr α)} →
    {vars : List (String × String)} → AlphaEqEntries vars entries entries' →
    {s s' : Table String Value} → Table.Agree vars s s' →
    suspendedEntries i s entries = suspendedEntries i s' entries'
  | [], _, _, .nil, _, _, _ => rfl
  | (_, _) :: _, _, _, .cons hkey hvalue hrest, _, _, hs => by
    unfold suspendedEntries
    rw [hkey.evaluate_eq hs, hvalue.evaluate_eq hs, hrest.suspendedEntries_eq hs]

end

end

/-! ## Types -/

section

variable (d : Declarations)

mutual

/-- Trees that are equal but for the names of loop variables have the same type and the same
errors. -/
theorem AlphaEq.infer_eq : {e e' : Tree} → {vars : List (String × String)} →
    AlphaEq vars e e' → {s s' : Table String Ty} → Table.Agree vars s s' →
    e.infer d s = e'.infer d s'
  | .ident _ n, _, _, .ident _ h, s, s', hs => by
    obtain ⟨hentry, rfl | ⟨ty, hty⟩⟩ := hs _ _ h
    · unfold infer
      rw [hentry]
    · unfold infer
      rw [← hentry, hty]
  | .literal .., _, _, .literal .., _, _, _ => rfl
  | .select .., _, _, .select _ _ _ h, _, _, hs => by
    unfold infer
    rw [h.infer_eq hs]
  | .call .., _, _, .call _ _ h, _, _, hs => by
    unfold infer
    rw [h.inferList_eq hs]
  | .invoke .., _, _, .invoke _ _ htarget hargs, _, _, hs => by
    unfold infer
    rw [htarget.infer_eq hs, hargs.inferList_eq hs]
  | .list .., _, _, .list _ h, _, _, hs => by
    unfold infer
    rw [h.inferList_eq hs]
  | .map .., _, _, .map _ h, _, _, hs => by
    unfold infer
    rw [h.inferEntries_eq hs]
  | .comprehension .., _, _, .comprehension _ _ x y hrange hbody, _, _, hs => by
    have hitem := fun ty => hbody.infer_eq (hs.cons x y ty)
    unfold infer
    -- The errors of a loop stand at its range and at its body, which keep their marks.
    simp only [hrange.infer_eq hs, hitem, hrange.mark_eq, hbody.mark_eq]

/-- Lists that differ in bound names have the same types where the bound names agree. -/
theorem AlphaEqList.inferList_eq : {es es' : List Tree} → {vars : List (String × String)} →
    AlphaEqList vars es es' → {s s' : Table String Ty} → Table.Agree vars s s' →
    inferList d s es = inferList d s' es'
  | [], _, _, .nil, _, _, _ => rfl
  | _ :: _, _, _, .cons h hrest, _, _, hs => by
    unfold inferList
    rw [h.infer_eq hs, hrest.inferList_eq hs]

/-- Entries that differ in bound names have the same types where the bound names agree. -/
theorem AlphaEqEntries.inferEntries_eq : {entries entries' : List (Tree × Tree)} →
    {vars : List (String × String)} → AlphaEqEntries vars entries entries' →
    {s s' : Table String Ty} → Table.Agree vars s s' →
    inferEntries d s entries = inferEntries d s' entries'
  | [], _, _, .nil, _, _, _ => rfl
  | (_, _) :: _, _, _, .cons hkey hvalue hrest, _, _, hs => by
    unfold inferEntries
    rw [hkey.infer_eq hs, hvalue.infer_eq hs, hrest.inferEntries_eq hs, hkey.mark_eq]

end

end

/-! ## Renaming -/

variable {e e' : Tree}

/-- Trees that are equal but for the names of loop variables pass the same checks. -/
theorem AlphaEq.check_eq (h : AlphaEq [] e e') (d : Declarations) : e.check d = e'.check d := by
  unfold check
  rw [h.infer_eq d (Table.agree_self [])]

/-- Trees that are equal but for the names of loop variables need the same functions. -/
theorem AlphaEq.missing?_eq (h : AlphaEq [] e e') (b : Bindings) :
    e.missing? b = e'.missing? b :=
  congrArg (List.find? fun f => !b.implements f) h.called_eq

/-- Trees that are equal but for the names of loop variables have the same value. -/
theorem AlphaEq.eval_eq (h : AlphaEq [] e e') (b : Bindings) (values scope : Table String Value) :
    e.eval b values scope = e'.eval b values scope :=
  congrArg ExceptT.run (h.evaluate_eq (b.interface values) (Table.agree_self scope))

/-- Trees that are equal but for the names of loop variables make the same calls, with the same
answers, and have the same value, whatever the host remembers of the calls before. -/
theorem AlphaEq.trace_eq (h : AlphaEq [] e e') (host : Host) (values : Table String Value) :
    e.trace host values = e'.trace host values := by
  unfold trace
  rw [h.evaluate_eq (host.interface values) (Table.agree_self [])]

/-- Loop variables can be renamed. In a tree that holds a loop at any place, the variable of the
loop and its free occurrences in the body can be given another name that does not occur in the body,
be it in use elsewhere or not. Neither the type of the tree nor the errors of its check change under
any declarations, nor does its value or the error of its evaluation for any values of the variables
and any functions of the host, nor what it lacks of these. A host that remembers the calls before is
called as often as before, in the same order and with the same arguments, and answers the same. -/
theorem rename_variable (c : Context Mark) (m : Mark) (loop : Loop) (x y : String)
    (range body : Tree) (hy : y ∉ body.names) :
    let before := c.fill (.comprehension m loop x range body)
    let after := c.fill (.comprehension m loop y range (body.rename x y))
    (∀ d : Declarations, before.check d = after.check d) ∧
      (∀ b : Bindings, before.missing? b = after.missing? b ∧
        ∀ values scope : Table String Value,
          before.eval b values scope = after.eval b values scope) ∧
      ∀ (host : Host) (values : Table String Value),
        before.trace host values = after.trace host values := by
  intro before after
  have h : AlphaEq [] before after := c.alphaEq_fill_rename m loop x y range body hy
  exact ⟨h.check_eq, fun b => ⟨h.missing?_eq b, h.eval_eq b⟩, h.trace_eq⟩

/-- Below a list, the variable of the outer one of two loops gets the name of a variable outside,
although the inner loop has taken its own name again. A host that counts its calls answers the sum
in the inner loop. -/
theorem rename_variable_shadowed :
    let mark : Mark := ⟨1, .dummy⟩
    let one : Tree := .list mark [.literal mark (.int 1)]
    let inner : Tree :=
      .comprehension mark .map "x" one (.call mark "_+_" [.ident mark "x", .literal mark (.int 1)])
    let body : String → Tree := fun v => .call mark "@in" [.ident mark v, inner]
    let tree : String → Tree := fun v =>
      .list mark [.ident mark "y", .comprehension mark .all v one (body v)]
    let host : Host := [("_+_", fun before _ => .ok (.int (.ofNat before.length)))]
    "y" ∉ (body "x").names ∧
      (tree "x").eval [] [("y", .int 2)] [] = (tree "y").eval [] [("y", .int 2)] [] ∧
      (tree "y").eval [] [("y", .int 2)] [] = .ok (.list [.int 2, .bool false]) ∧
      (tree "x").trace host [("y", .int 2)] = (tree "y").trace host [("y", .int 2)] ∧
      ((tree "y").trace host [("y", .int 2)]).2.map Call.function = ["_+_", "@in"] := by
  intro mark one inner body tree host
  have hfresh : "y" ∉ (body "x").names := by decide
  obtain ⟨-, heval, htrace⟩ := rename_variable (.element mark [.ident mark "y"] .here []) mark .all
    "x" "y" one (body "x") hfresh
  exact ⟨hfresh, (heval []).2 [("y", .int 2)] [], rfl, htrace host [("y", .int 2)], rfl⟩

end Expr

end CelShell
