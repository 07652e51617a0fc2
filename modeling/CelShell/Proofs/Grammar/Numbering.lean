import CelShell.Proofs.Grammar.Building
import Mathlib.Data.List.Flatten
import Mathlib.Data.List.Perm.Basic

/-!
# The numbers of nodes

Nodes are numbered in the order in which they are made, and a node is made after its children. So
the numbers of a parsed tree, listed in post-order, increase (`Expr.ofTokens_numbers`): the numbers
of the nodes that folding and macros leave out are missing from the list, but none is used twice and
none comes out of order. The invariant is that of the stack of trees that a parser has built
(`Cursor.Builds.numbered`).
-/

namespace CelShell

namespace Expr

variable {α : Type}

/-! ## Post-order -/

mutual

/-- The marks of a node and of all nodes below it, each after those of its children and the children
in source order. -/
def postorder : Expr α → List α
  | ident m _ | literal m _ => [m]
  | select m operand _ _ => operand.postorder ++ [m]
  | call m _ args => postorderOfList args ++ [m]
  | invoke m target _ args => target.postorder ++ postorderOfList args ++ [m]
  | list m elements => postorderOfList elements ++ [m]
  | map m entries => postorderOfEntries entries ++ [m]
  | comprehension m _ _ range body => range.postorder ++ body.postorder ++ [m]

/-- The marks of a list of trees. -/
def postorderOfList : List (Expr α) → List α
  | [] => []
  | e :: rest => e.postorder ++ postorderOfList rest

/-- The marks of a list of entries, those of a key before those of its value. -/
def postorderOfEntries : List (Expr α × Expr α) → List α
  | [] => []
  | (k, v) :: rest => k.postorder ++ v.postorder ++ postorderOfEntries rest

end

/-- The marks of a list of expressions come expression by expression. -/
theorem postorderOfList_eq (es : List (Expr α)) : postorderOfList es = es.flatMap postorder := by
  induction es with
  | nil => rfl
  | cons e rest ih => rw [postorderOfList, ih, List.flatMap_cons]

/-- The marks of a list of entries come entry by entry, a key before its value. -/
theorem postorderOfEntries_eq (entries : List (Expr α × Expr α)) :
    postorderOfEntries entries = (entries.flatMap fun e => [e.1, e.2]).flatMap postorder := by
  induction entries with
  | nil => rfl
  | cons e rest ih => simp [postorderOfEntries, ih]

/-- The root comes after its children. -/
theorem postorder_eq (e : Expr α) : e.postorder = e.children.flatMap postorder ++ [e.mark] := by
  cases e <;> simp [postorder, children, mark, postorderOfList_eq, postorderOfEntries_eq]

variable {P : Expr α → Prop}

mutual

/-- What holds of a node if it holds of its children holds of every tree. -/
theorem of_children (h : ∀ e : Expr α, (∀ c ∈ e.children, P c) → P e) : (e : Expr α) → P e
  | ident _ _ => h _ nofun
  | literal _ _ => h _ nofun
  | select _ operand _ _ => h _ (List.forall_mem_singleton.2 (of_children h operand))
  | call _ _ args => h _ (forall_of_children h args)
  | invoke _ target _ args =>
    h _ (List.forall_mem_cons.2 ⟨of_children h target, forall_of_children h args⟩)
  | list _ elements => h _ (forall_of_children h elements)
  | map _ entries => h _ (forall_entries_of_children h entries)
  | comprehension _ _ _ range body => h _ (List.forall_mem_cons.2
      ⟨of_children h range, List.forall_mem_singleton.2 (of_children h body)⟩)

/-- What holds of an expression if it does of its children holds of each expression of a list. -/
theorem forall_of_children (h : ∀ e : Expr α, (∀ c ∈ e.children, P c) → P e) :
    (es : List (Expr α)) → ∀ e ∈ es, P e
  | [] => nofun
  | e :: rest => List.forall_mem_cons.2 ⟨of_children h e, forall_of_children h rest⟩

/-- What holds of an expression if it does of its children holds of the keys and values of entries.
-/
theorem forall_entries_of_children (h : ∀ e : Expr α, (∀ c ∈ e.children, P c) → P e) :
    (entries : List (Expr α × Expr α)) → ∀ e ∈ entries.flatMap fun e => [e.1, e.2], P e
  | [] => nofun
  | (k, v) :: rest => List.forall_mem_cons.2 ⟨of_children h k,
      List.forall_mem_cons.2 ⟨of_children h v, forall_entries_of_children h rest⟩⟩

end

/-- Both orders list every node once. -/
theorem map_mark_nodes_perm (e : Expr α) : (e.nodes.map mark).Perm e.postorder := by
  induction e using of_children with
  | h e ih =>
    rw [nodes_eq, postorder_eq, List.map_cons, List.map_flatMap]
    exact ((List.Perm.flatMap_left _ ih).cons _).trans (List.perm_append_singleton _ _).symm

/-- The marks of a node and of those below it stand together. -/
theorem postorder_infix_of_mem_nodes {n e : Expr α} (h : n ∈ e.nodes) :
    n.postorder <:+: e.postorder := by
  induction e using of_children with
  | h e ih =>
    rw [nodes_eq, List.mem_cons, List.mem_flatMap] at h
    rcases h with rfl | ⟨c, hc, hn⟩
    · exact List.infix_refl _
    · have hchild : c.postorder <:+: e.children.flatMap postorder := by
        obtain ⟨before, after, hchildren⟩ := List.append_of_mem hc
        refine ⟨before.flatMap postorder, after.flatMap postorder, ?_⟩
        rw [hchildren, List.flatMap_append, List.flatMap_cons, List.append_assoc]
      rw [postorder_eq e]
      exact ((ih c hc hn).trans hchild).trans (List.prefix_append _ _).isInfix

/-- The mark of a node below another comes before that one. -/
theorem mem_postorder_of_child {n c d : Expr α} (hc : c ∈ n.children) (hd : d ∈ c.nodes) :
    d.mark ∈ n.children.flatMap postorder := by
  have hmark : d.mark ∈ c.postorder :=
    c.map_mark_nodes_perm.mem_iff.1 (List.mem_map_of_mem hd)
  exact List.mem_flatMap.2 ⟨c, hc, hmark⟩

end Expr

/-! ## The numbers of a stack -/

/-- The numbers of some trees, in post-order. -/
def idsOf (ts : List Tree) : List Nat := (ts.flatMap Expr.postorder).map Mark.id

/-- The numbers of trees that follow others follow theirs. -/
theorem idsOf_append (ts us : List Tree) : idsOf (ts ++ us) = idsOf ts ++ idsOf us := by
  rw [idsOf, List.flatMap_append, List.map_append]
  rfl

/-- The number of a tree comes after those of its children. -/
theorem idsOf_singleton (t : Tree) : idsOf [t] = idsOf t.children ++ [t.mark.id] := by
  rw [idsOf, List.flatMap_singleton, Expr.postorder_eq, List.map_append]
  rfl

namespace Cursor

variable {c₀ c : Cursor} {ts : List Tree} {ids ids' : List Nat}

/-- Numbers that were given out between two cursors, in this order. -/
structure Numbers (c₀ c : Cursor) (ids : List Nat) : Prop where
  le : c₀.nextId ≤ c.nextId
  increasing : ids.Pairwise (· < ·)
  between : ∀ i ∈ ids, c₀.nextId ≤ i ∧ i < c.nextId

/-- Numbers may be left out. -/
theorem Numbers.sublist (h : Numbers c₀ c ids) (hsub : ids'.Sublist ids) : Numbers c₀ c ids' where
  le := h.le
  increasing := h.increasing.sublist hsub
  between i hi := h.between i (hsub.subset hi)

/-- The next number is greater than all before it. -/
theorem Numbers.snoc (h : Numbers c₀ c ids) :
    Numbers c₀ { c with nextId := c.nextId + 1 } (ids ++ [c.nextId]) where
  le := Nat.le_succ_of_le h.le
  increasing := List.pairwise_append.2 ⟨h.increasing, List.pairwise_singleton _ _, fun i hi =>
    List.forall_mem_singleton.2 (h.between i hi).2⟩
  between := List.forall_mem_append.2
    ⟨fun i hi => ⟨(h.between i hi).1, Nat.lt_succ_of_lt (h.between i hi).2⟩,
      List.forall_mem_singleton.2 ⟨h.le, Nat.lt_succ_self _⟩⟩

/-- The trees that a parser has built are numbered in post-order. -/
theorem Builds.numbered (h : Builds c₀ ts c) : Numbers c₀ c (idsOf ts) := by
  induction h with
  | start => exact ⟨Nat.le_refl _, List.Pairwise.nil, nofun⟩
  | @token ts c t rest _ hrest ih =>
    have hnext : c.skip.nextId = c.nextId := by rw [Cursor.skip, hrest]
    exact ⟨hnext ▸ ih.le, ih.increasing, hnext ▸ ih.between⟩
  | @node ts t c _ hid ih =>
    -- The node gets the next number, which is greater than those of its children.
    have hids : idsOf (ts ++ [t]) = idsOf (ts ++ t.children) ++ [c.nextId] := by
      rw [idsOf_append, idsOf_append, idsOf_singleton, hid, List.append_assoc]
    exact hids ▸ ih.snoc
  | @unwrap ts t c _ ih =>
    -- Without the node around them its children keep their numbers.
    refine ih.sublist ?_
    rw [idsOf_append, idsOf_append, idsOf_singleton]
    exact (List.Sublist.refl _).append (List.sublist_append_left _ _)
  | sublist _ hsub ih => exact ih.sublist ((hsub.flatMap Expr.postorder).map Mark.id)

end Cursor

namespace Expr

/-- The nodes of a parsed tree have numbers of their own, which count from one in post-order, with
gaps where nodes were left out. So a node has a greater number than all below it. -/
theorem ofTokens_numbers {tokens : List Token} {macrosOn : Bool} {t : Tree}
    (h : ofTokens tokens macrosOn = .ok t) :
    (t.postorder.map Mark.id).Pairwise (· < ·) ∧ (∀ i ∈ t.postorder.map Mark.id, 0 < i) ∧
      (t.nodes.map fun n => n.mark.id).Nodup ∧
      ∀ n ∈ t.nodes, ∀ c ∈ n.children, ∀ d ∈ c.nodes, d.mark.id < n.mark.id := by
  obtain ⟨c, hrun⟩ : ∃ c, Parser.expr maxDepth ⟨tokens, .dummy, 1, macrosOn⟩ = .ok t c := by
    unfold ofTokens at h
    cases hrun : Parser.expr maxDepth ⟨tokens, .dummy, 1, macrosOn⟩ with
    | ok t' c =>
      simp only [hrun] at h
      split at h <;> cases h
      exact ⟨c, rfl⟩
    | error e c =>
      simp only [hrun] at h
      cases e <;> cases h
  have hnumbers := ((Parser.expr_builds maxDepth _).of_ok hrun).numbered
  have hids : idsOf [t] = t.postorder.map Mark.id := by rw [idsOf, List.flatMap_singleton]
  rw [hids] at hnumbers
  refine ⟨hnumbers.increasing, fun i hi => (hnumbers.between i hi).1, ?_, ?_⟩
  · have hperm := (t.map_mark_nodes_perm.map Mark.id).nodup_iff
    rw [List.map_map] at hperm
    exact hperm.2 (hnumbers.increasing.imp Nat.ne_of_lt)
  · intro n hn d' hd' d hd
    -- The numbers below a node and its own stand together in the list, its own at the end.
    have hbelow := hnumbers.increasing.sublist
      ((postorder_infix_of_mem_nodes hn).sublist.map Mark.id)
    rw [postorder_eq, List.map_append, List.pairwise_append] at hbelow
    exact hbelow.2.2 _ (List.mem_map_of_mem (mem_postorder_of_child hd' hd)) _
      List.mem_cons_self

/-- Numbers 2 and 3 went to the variable that the macro binds and to the number behind the sign. -/
theorem ofTokens_numbers_gaps :
    ∃ t, ofTokens
        [⟨.ident "xs", .dummy⟩, ⟨.symbol .dot, .dummy⟩, ⟨.ident "map", .dummy⟩,
          ⟨.symbol .leftParen, .dummy⟩, ⟨.ident "x", .dummy⟩, ⟨.symbol .comma, .dummy⟩,
          ⟨.symbol .minus, .dummy⟩, ⟨.literal (.int 1), .dummy⟩, ⟨.symbol .rightParen, .dummy⟩,
          ⟨.eof, .dummy⟩] true = .ok t ∧
      t.postorder.map Mark.id = [1, 4, 5] ∧ (t.nodes.map fun n => n.mark.id).Nodup := by
  refine ⟨.comprehension ⟨5, .dummy⟩ .map "x" (.ident ⟨1, .dummy⟩ "xs")
    (.literal ⟨4, .dummy⟩ (.int (-1))), ?parsed, rfl, (ofTokens_numbers ?parsed).2.2.1⟩
  rfl

end Expr

end CelShell
