import CelShell.Expr.Basic
import CelShell.Proofs.Expr.Calls
import CelShell.Table

/-!
# Names of loop variables

Two trees are equal but for the names of loop variables if their names are paired: a name in one
tree stands where its partner stands in the other, the variables of the loops around them are
partners, innermost first, and any other name is its own partner (`Expr.AlphaEq`). A walk that looks
names up in a scope sees no difference, as partners have the same entries in the scopes of two such
walks (`Table.Agree`).

The tree that comes from another by renaming the variable of one of its loops is equal to it in this
sense, if the new name does not occur in the body of the loop (`Expr.Context.alphaEq_fill_rename`).
-/

namespace CelShell

/-! ## Partners -/

/-- Whether two names stand for the same under the variables of the loops around them, which are
given in pairs, innermost first. -/
def Paired : List (String × String) → String → String → Prop
  | [], n, n' => n = n'
  | (x, y) :: vars, n, n' => n = x ∧ n' = y ∨ n ≠ x ∧ n' ≠ y ∧ Paired vars n n'

variable {vars : List (String × String)} {n x y : String}

/-- Inside a loop that keeps its name, a name is its own partner if it is so outside or is the
variable. -/
theorem Paired.cons_self (h : n ≠ x → Paired vars n n) : Paired ((x, x) :: vars) n n := by
  by_cases hn : n = x
  · exact Or.inl ⟨hn, hn⟩
  · exact Or.inr ⟨hn, hn, h hn⟩

/-- Partners have the same entry in two scopes, and names that are not the same do have one. -/
def Table.Agree {β : Type} (vars : List (String × String)) (s s' : Table String β) : Prop :=
  ∀ n n', Paired vars n n' → s.get? n = s'.get? n' ∧ (n = n' ∨ ∃ v, s.get? n = some v)

/-- Without loops around, a scope agrees with itself. -/
theorem Table.agree_self {β : Type} (s : Table String β) : Table.Agree [] s s := by
  rintro n n' ⟨⟩
  exact ⟨rfl, Or.inl rfl⟩

/-- The variables of two loops get the same entry. -/
theorem Table.Agree.cons {β : Type} {s s' : Table String β} (h : Table.Agree vars s s')
    (x y : String) (v : β) : Table.Agree ((x, y) :: vars) ((x, v) :: s) ((y, v) :: s') := by
  rintro n n' (⟨rfl, rfl⟩ | ⟨hn, hn', hpaired⟩)
  · simp [Table.get?]
  · simpa [Table.get?, Ne.symm hn, Ne.symm hn'] using h n n' hpaired

namespace Expr

variable {α : Type}

/-! ## Names -/

/-- The name that a node has: of a variable, or of the variable of a loop. -/
def name? : Expr α → Option String
  | ident _ name => some name
  | comprehension _ _ var _ _ => some var
  | _ => none

/-- The names in a tree. -/
def names (e : Expr α) : List String := e.nodes.filterMap name?

/-- The names in some trees. -/
def namesOfList (es : List (Expr α)) : List String := (nodesOfList es).filterMap name?

/-- The names in entries. -/
def namesOfEntries (entries : List (Expr α × Expr α)) : List String :=
  (nodesOfEntries entries).filterMap name?

section

variable (m : α) (e target range body key value : Expr α) (es args : List (Expr α))
  (entries : List (Expr α × Expr α)) (function field var : String) (testOnly : Bool) (loop : Loop)

/-- The names in a call on a target. -/
theorem names_invoke :
    (invoke m target function args).names = target.names ++ namesOfList args := by
  simp only [names, namesOfList, nodes, List.filterMap_cons, name?, List.filterMap_append]

/-- The names in a loop, its variable before those of its range and body. -/
theorem names_comprehension :
    (comprehension m loop var range body).names = var :: (range.names ++ body.names) := by
  simp only [names, nodes, List.filterMap_cons, name?, List.filterMap_append]

/-- The names in expressions, one expression after the other. -/
theorem namesOfList_cons : namesOfList (e :: es) = e.names ++ namesOfList es := by
  simp only [names, namesOfList, nodesOfList, List.filterMap_append]

/-- The names in entries, those of each key before those of its value. -/
theorem namesOfEntries_cons :
    namesOfEntries ((key, value) :: entries) =
      key.names ++ value.names ++ namesOfEntries entries := by
  simp only [names, namesOfEntries, nodesOfEntries, List.filterMap_append]

end

mutual

/-- The tree with another name for a variable, wherever no loop in the tree has a variable of that
name. -/
def rename (x y : String) : Expr α → Expr α
  | ident m name => ident m (if name = x then y else name)
  | literal m value => literal m value
  | select m operand field testOnly => select m (rename x y operand) field testOnly
  | call m function args => call m function (renameList x y args)
  | invoke m target function args =>
    invoke m (rename x y target) function (renameList x y args)
  | list m elements => list m (renameList x y elements)
  | map m entries => map m (renameEntries x y entries)
  | comprehension m loop var range body =>
    comprehension m loop var (rename x y range) (if var = x then body else rename x y body)

/-- The trees with another name for a variable. -/
def renameList (x y : String) : List (Expr α) → List (Expr α)
  | [] => []
  | e :: rest => rename x y e :: renameList x y rest

/-- The entries with another name for a variable. -/
def renameEntries (x y : String) : List (Expr α × Expr α) → List (Expr α × Expr α)
  | [] => []
  | (k, v) :: rest => (rename x y k, rename x y v) :: renameEntries x y rest

end

/-! ## Equality up to the names of loop variables -/

mutual

/-- The trees are equal, marks included, but for names that are partners. -/
inductive AlphaEq : List (String × String) → Expr α → Expr α → Prop where
  | ident {vars : List (String × String)} (m : α) {n n' : String} (h : Paired vars n n') :
      AlphaEq vars (.ident m n) (.ident m n')
  | literal {vars : List (String × String)} (m : α) (value : Literal) :
      AlphaEq vars (.literal m value) (.literal m value)
  | select {vars : List (String × String)} (m : α) {e e' : Expr α} (field : String)
      (testOnly : Bool) (h : AlphaEq vars e e') :
      AlphaEq vars (.select m e field testOnly) (.select m e' field testOnly)
  | call {vars : List (String × String)} (m : α) (function : String) {es es' : List (Expr α)}
      (h : AlphaEqList vars es es') :
      AlphaEq vars (.call m function es) (.call m function es')
  | invoke {vars : List (String × String)} (m : α) {e e' : Expr α} (function : String)
      {es es' : List (Expr α)} (htarget : AlphaEq vars e e') (hargs : AlphaEqList vars es es') :
      AlphaEq vars (.invoke m e function es) (.invoke m e' function es')
  | list {vars : List (String × String)} (m : α) {es es' : List (Expr α)}
      (h : AlphaEqList vars es es') : AlphaEq vars (.list m es) (.list m es')
  | map {vars : List (String × String)} (m : α) {entries entries' : List (Expr α × Expr α)}
      (h : AlphaEqEntries vars entries entries') :
      AlphaEq vars (.map m entries) (.map m entries')
  /-- In the bodies of two loops their variables are partners. -/
  | comprehension {vars : List (String × String)} (m : α) (loop : Loop) (x y : String)
      {range range' body body' : Expr α} (hrange : AlphaEq vars range range')
      (hbody : AlphaEq ((x, y) :: vars) body body') :
      AlphaEq vars (.comprehension m loop x range body) (.comprehension m loop y range' body')

/-- The same of the trees of two lists. -/
inductive AlphaEqList : List (String × String) → List (Expr α) → List (Expr α) → Prop where
  | nil {vars : List (String × String)} : AlphaEqList vars [] []
  | cons {vars : List (String × String)} {e e' : Expr α} {rest rest' : List (Expr α)}
      (h : AlphaEq vars e e') (hrest : AlphaEqList vars rest rest') :
      AlphaEqList vars (e :: rest) (e' :: rest')

/-- The same of the keys and values of entries. -/
inductive AlphaEqEntries :
    List (String × String) → List (Expr α × Expr α) → List (Expr α × Expr α) → Prop where
  | nil {vars : List (String × String)} : AlphaEqEntries vars [] []
  | cons {vars : List (String × String)} {k k' v v' : Expr α}
      {rest rest' : List (Expr α × Expr α)} (hkey : AlphaEq vars k k')
      (hvalue : AlphaEq vars v v') (hrest : AlphaEqEntries vars rest rest') :
      AlphaEqEntries vars ((k, v) :: rest) ((k', v') :: rest')

end

/-- Trees that are equal but for the names of loop variables have the same mark. -/
theorem AlphaEq.mark_eq {e e' : Expr α} (h : AlphaEq vars e e') : e.mark = e'.mark := by
  cases h <;> rfl

mutual

/-- A tree is equal to itself if its names are their own partners. -/
theorem alphaEq_self : (e : Expr α) → {vars : List (String × String)} →
    (∀ n ∈ e.names, Paired vars n n) → AlphaEq vars e e
  | .ident m name, _, h => .ident m (h name (List.mem_singleton_self name))
  | .literal m value, _, _ => .literal m value
  | .select m operand field testOnly, _, h => .select m field testOnly (alphaEq_self operand h)
  | .call m function args, _, h => .call m function (alphaEqList_self args h)
  | .invoke m target function args, _, h => by
    rw [names_invoke] at h
    obtain ⟨htarget, hargs⟩ := List.forall_mem_append.mp h
    exact .invoke m function (alphaEq_self target htarget) (alphaEqList_self args hargs)
  | .list m elements, _, h => .list m (alphaEqList_self elements h)
  | .map m entries, _, h => .map m (alphaEqEntries_self entries h)
  | .comprehension m loop var range body, _, h => by
    rw [names_comprehension] at h
    -- In the body the variable of the loop is its own partner.
    obtain ⟨-, hparts⟩ := List.forall_mem_cons.mp h
    obtain ⟨hrange, hbody⟩ := List.forall_mem_append.mp hparts
    exact .comprehension m loop var var (alphaEq_self range hrange)
      (alphaEq_self body fun n hn => .cons_self fun _ => hbody n hn)

/-- Expressions whose names are their own partners are equal to themselves under the loops around
them. -/
theorem alphaEqList_self : (es : List (Expr α)) → {vars : List (String × String)} →
    (∀ n ∈ namesOfList es, Paired vars n n) → AlphaEqList vars es es
  | [], _, _ => .nil
  | e :: rest, _, h => by
    rw [namesOfList_cons] at h
    obtain ⟨hfirst, hrest⟩ := List.forall_mem_append.mp h
    exact .cons (alphaEq_self e hfirst) (alphaEqList_self rest hrest)

/-- Entries whose names are their own partners are equal to themselves under the loops around them.
-/
theorem alphaEqEntries_self : (entries : List (Expr α × Expr α)) →
    {vars : List (String × String)} →
    (∀ n ∈ namesOfEntries entries, Paired vars n n) → AlphaEqEntries vars entries entries
  | [], _, _ => .nil
  | (k, v) :: rest, _, h => by
    rw [namesOfEntries_cons] at h
    obtain ⟨hfirst, hrest⟩ := List.forall_mem_append.mp h
    obtain ⟨hkey, hvalue⟩ := List.forall_mem_append.mp hfirst
    exact .cons (alphaEq_self k hkey) (alphaEq_self v hvalue) (alphaEqEntries_self rest hrest)

end

mutual

/-- A tree is equal to the one with another name for a variable if the old name and the new one are
partners, the new name is not in the tree, and all other names in it are their own partners. -/
theorem alphaEq_rename : (e : Expr α) → {vars : List (String × String)} → Paired vars x y →
    (∀ n ∈ e.names, n ≠ y ∧ (n ≠ x → Paired vars n n)) → AlphaEq vars e (e.rename x y)
  | .ident m name, vars, hvar, h => by
    have hname : Paired vars name (if name = x then y else name) := by
      split
      · next heq => rwa [heq]
      · next hne => exact (h name (List.mem_singleton_self name)).2 hne
    exact .ident m hname
  | .literal m value, _, _, _ => .literal m value
  | .select m operand field testOnly, _, hvar, h =>
    .select m field testOnly (alphaEq_rename operand hvar h)
  | .call m function args, _, hvar, h => .call m function (alphaEqList_rename args hvar h)
  | .invoke m target function args, _, hvar, h => by
    rw [names_invoke] at h
    obtain ⟨htarget, hargs⟩ := List.forall_mem_append.mp h
    exact .invoke m function (alphaEq_rename target hvar htarget)
      (alphaEqList_rename args hvar hargs)
  | .list m elements, _, hvar, h => .list m (alphaEqList_rename elements hvar h)
  | .map m entries, _, hvar, h => .map m (alphaEqEntries_rename entries hvar h)
  | .comprehension m loop var range body, vars, hvar, h => by
    rw [names_comprehension] at h
    obtain ⟨⟨hfresh, -⟩, hparts⟩ := List.forall_mem_cons.mp h
    obtain ⟨hrange, hbody⟩ := List.forall_mem_append.mp hparts
    -- Below a loop whose variable has the old name, that name is its own partner.
    have hinner :
        AlphaEq ((var, var) :: vars) body (if var = x then body else body.rename x y) := by
      split
      · next heq => exact alphaEq_self body fun n hn => .cons_self fun hne =>
          (hbody n hn).2 (heq ▸ hne)
      · next hne =>
        refine alphaEq_rename body (Or.inr ⟨Ne.symm hne, Ne.symm hfresh, hvar⟩) fun n hn => ?_
        exact ⟨(hbody n hn).1, fun hnx => .cons_self fun _ => (hbody n hn).2 hnx⟩
    exact .comprehension m loop var var (alphaEq_rename range hvar hrange) hinner

/-- Renaming the free occurrences of a name gives expressions that are equal under the loop that is
renamed so. -/
theorem alphaEqList_rename : (es : List (Expr α)) → {vars : List (String × String)} →
    Paired vars x y → (∀ n ∈ namesOfList es, n ≠ y ∧ (n ≠ x → Paired vars n n)) →
    AlphaEqList vars es (renameList x y es)
  | [], _, _, _ => .nil
  | e :: rest, _, hvar, h => by
    rw [namesOfList_cons] at h
    obtain ⟨hfirst, hrest⟩ := List.forall_mem_append.mp h
    exact .cons (alphaEq_rename e hvar hfirst) (alphaEqList_rename rest hvar hrest)

/-- Renaming the free occurrences of a name gives entries that are equal under the loop that is
renamed so. -/
theorem alphaEqEntries_rename : (entries : List (Expr α × Expr α)) →
    {vars : List (String × String)} → Paired vars x y →
    (∀ n ∈ namesOfEntries entries, n ≠ y ∧ (n ≠ x → Paired vars n n)) →
    AlphaEqEntries vars entries (renameEntries x y entries)
  | [], _, _, _ => .nil
  | (k, v) :: rest, _, hvar, h => by
    rw [namesOfEntries_cons] at h
    obtain ⟨hfirst, hrest⟩ := List.forall_mem_append.mp h
    obtain ⟨hkey, hvalue⟩ := List.forall_mem_append.mp hfirst
    exact .cons (alphaEq_rename k hvar hkey) (alphaEq_rename v hvar hvalue)
      (alphaEqEntries_rename rest hvar hrest)

end

mutual

/-- Trees that are equal but for the names of loop variables call the same functions. -/
theorem AlphaEq.called_eq : {vars : List (String × String)} → {e e' : Expr α} →
    AlphaEq vars e e' → e.called = e'.called
  | _, .ident .., _, .ident .. => rfl
  | _, .literal .., _, .literal .. => rfl
  | _, .select .., _, .select _ _ _ h => h.called_eq
  | _, .call _ function _, _, .call _ _ h => congrArg (function :: ·) h.called_eq
  | _, .invoke .., _, .invoke _ _ htarget hargs => by
    rw [called_invoke, called_invoke, htarget.called_eq, hargs.called_eq]
  | _, .list .., _, .list _ h => h.called_eq
  | _, .map .., _, .map _ h => h.called_eq
  | _, .comprehension .., _, .comprehension _ _ _ _ hrange hbody => by
    rw [called_comprehension, called_comprehension, hrange.called_eq, hbody.called_eq]

/-- Expressions that are equal but for the names of loop variables call the same functions. -/
theorem AlphaEqList.called_eq : {vars : List (String × String)} → {es es' : List (Expr α)} →
    AlphaEqList vars es es' → calledOfList es = calledOfList es'
  | _, [], _, .nil => rfl
  | _, _ :: _, _, .cons h hrest => by
    rw [calledOfList_cons, calledOfList_cons, h.called_eq, hrest.called_eq]

/-- Entries that are equal but for the names of loop variables call the same functions. -/
theorem AlphaEqEntries.called_eq : {vars : List (String × String)} →
    {entries entries' : List (Expr α × Expr α)} → AlphaEqEntries vars entries entries' →
    calledOfEntries entries = calledOfEntries entries'
  | _, [], _, .nil => rfl
  | _, (_, _) :: _, _, .cons hkey hvalue hrest => by
    rw [calledOfEntries_cons, calledOfEntries_cons, hkey.called_eq, hvalue.called_eq,
      hrest.called_eq]

end

/-! ## Positions in a tree -/

/-- A tree with one subtree missing. -/
inductive Context (α : Type) where
  /-- The whole tree is missing. -/
  | here
  | operand (mark : α) (c : Context α) (field : String) (testOnly : Bool)
  | argument (mark : α) (function : String) (before : List (Expr α)) (c : Context α)
      (after : List (Expr α))
  | target (mark : α) (c : Context α) (function : String) (args : List (Expr α))
  /-- Missing among the arguments of a call on a target. -/
  | parameter (mark : α) (target : Expr α) (function : String) (before : List (Expr α))
      (c : Context α) (after : List (Expr α))
  | element (mark : α) (before : List (Expr α)) (c : Context α) (after : List (Expr α))
  | key (mark : α) (before : List (Expr α × Expr α)) (c : Context α) (value : Expr α)
      (after : List (Expr α × Expr α))
  | value (mark : α) (before : List (Expr α × Expr α)) (key : Expr α) (c : Context α)
      (after : List (Expr α × Expr α))
  | range (mark : α) (loop : Loop) (var : String) (c : Context α) (body : Expr α)
  | body (mark : α) (loop : Loop) (var : String) (range : Expr α) (c : Context α)

namespace Context

/-- The tree with a subtree in the place of the one that is missing. -/
def fill (e : Expr α) : Context α → Expr α
  | here => e
  | operand m c field testOnly => .select m (c.fill e) field testOnly
  | argument m function before c after => .call m function (before ++ c.fill e :: after)
  | target m c function args => .invoke m (c.fill e) function args
  | parameter m receiver function before c after =>
    .invoke m receiver function (before ++ c.fill e :: after)
  | element m before c after => .list m (before ++ c.fill e :: after)
  | key m before c v after => .map m (before ++ (c.fill e, v) :: after)
  | value m before k c after => .map m (before ++ (k, c.fill e) :: after)
  | range m loop var c b => .comprehension m loop var (c.fill e) b
  | body m loop var r c => .comprehension m loop var r (c.fill e)

end Context

/-- Lists with equal trees in one place and the same trees around it. -/
theorem alphaEqList_around (hself : ∀ n, Paired vars n n) (before after : List (Expr α))
    {e e' : Expr α} (h : AlphaEq vars e e') :
    AlphaEqList vars (before ++ e :: after) (before ++ e' :: after) := by
  induction before with
  | nil => exact .cons h (alphaEqList_self after fun n _ => hself n)
  | cons first rest ih => exact .cons (alphaEq_self first fun n _ => hself n) ih

/-- Entries with equal trees in one place and the same trees around it. -/
theorem alphaEqEntries_around (hself : ∀ n, Paired vars n n) (before after : List (Expr α × Expr α))
    {k k' v v' : Expr α} (hkey : AlphaEq vars k k') (hvalue : AlphaEq vars v v') :
    AlphaEqEntries vars (before ++ (k, v) :: after) (before ++ (k', v') :: after) := by
  induction before with
  | nil => exact .cons hkey hvalue (alphaEqEntries_self after fun n _ => hself n)
  | cons first rest ih =>
    exact .cons (alphaEq_self first.1 fun n _ => hself n)
      (alphaEq_self first.2 fun n _ => hself n) ih

/-- Trees that are equal wherever names are their own partners stay equal in any tree around
them. -/
theorem Context.alphaEq_fill {e e' : Expr α}
    (h : ∀ vars, (∀ n, Paired vars n n) → AlphaEq vars e e') (c : Context α)
    {vars : List (String × String)} (hself : ∀ n, Paired vars n n) :
    AlphaEq vars (c.fill e) (c.fill e') := by
  -- All that stands beside the place is equal to itself.
  have hsame : ∀ other : Expr α, AlphaEq vars other other := fun other =>
    alphaEq_self other fun n _ => hself n
  induction c generalizing vars with
  | here => exact h vars hself
  | operand m c field testOnly ih => exact .select m field testOnly (ih hself hsame)
  | argument m function before c after ih =>
    exact .call m function (alphaEqList_around hself before after (ih hself hsame))
  | target m c function args ih =>
    exact .invoke m function (ih hself hsame) (alphaEqList_self args fun n _ => hself n)
  | parameter m target function before c after ih =>
    exact .invoke m function (hsame target)
      (alphaEqList_around hself before after (ih hself hsame))
  | element m before c after ih =>
    exact .list m (alphaEqList_around hself before after (ih hself hsame))
  | key m before c value after ih =>
    exact .map m (alphaEqEntries_around hself before after (ih hself hsame) (hsame value))
  | value m before key c after ih =>
    exact .map m (alphaEqEntries_around hself before after (hsame key) (ih hself hsame))
  | range m loop var c body ih =>
    exact .comprehension m loop var var (ih hself hsame)
      (alphaEq_self body fun n _ => .cons_self fun _ => hself n)
  | body m loop var range c ih =>
    -- The place stands behind one more bound name, which is its own partner.
    have hinner : ∀ n, Paired ((var, var) :: vars) n n := fun n => .cons_self fun _ => hself n
    exact .comprehension m loop var var (hsame range)
      (ih hinner fun other => alphaEq_self other fun n _ => hinner n)

/-- A tree is equal to the one in which the variable of a loop, wherever that stands, has another
name, if that name is not in the body of the loop. -/
theorem Context.alphaEq_fill_rename (c : Context α) (m : α) (loop : Loop) (x y : String)
    (range body : Expr α) (hy : y ∉ body.names) :
    AlphaEq [] (c.fill (.comprehension m loop x range body))
      (c.fill (.comprehension m loop y range (body.rename x y))) := by
  refine c.alphaEq_fill (fun vars hself => ?_) fun n => rfl
  refine .comprehension m loop x y (alphaEq_self range fun n _ => hself n) ?_
  refine alphaEq_rename body (Or.inl ⟨rfl, rfl⟩) fun n hn => ?_
  have hfresh : n ≠ y := fun he => hy (he ▸ hn)
  exact ⟨hfresh, fun hne => Or.inr ⟨hne, hfresh, hself n⟩⟩

end Expr

end CelShell
