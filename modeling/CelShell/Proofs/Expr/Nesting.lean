import CelShell.Proofs.Expr.Text
import CelShell.Proofs.Grammar.Nesting

/-!
# What it takes to read an expression back

`Expr.nesting` counts the links and the levels that reading the canonical text of an expression
takes, and `Expr.levels` the levels that the whole text takes. The counts follow the printer: an
operand in parentheses is a whole expression of its own, while one without goes on with the chain
that it ends in.
-/

namespace CelShell

namespace Grammar.Nesting

/-- The levels that an expression takes as a whole. The conditional is read as a whole expression
already. -/
def whole (binding : Nat) (n : Nesting) : Nat :=
  if binding = Binding.conditional then n.levels else n.levels + 1

/-- What an expression takes as it is printed in the place of an operand: in parentheses if it binds
looser than its place demands. -/
def operand (binding demanded : Nat) (n : Nesting) : Nesting :=
  if binding < demanded then closed (n.whole binding) else n.asOperand binding demanded

end Grammar.Nesting

/-- An expression of a level is a whole expression. -/
theorem Grammar.Takes.whole {m : Bool} {level : Nat} {e : Expr Unit} {ks : List Kind} {n : Nesting}
    (h : Takes m (.expr level e) ks n) (hpos : Binding.conditional ≤ level)
    (hmember : level ≤ Binding.member) :
    Takes m (.expr Binding.conditional e) ks (.closed (n.whole level)) := by
  -- A conditional is a whole expression already; all else becomes one as an operand.
  rcases Nat.eq_or_lt_of_le hpos with rfl | hor
  · rw [Nesting.whole, if_pos rfl, ← Nesting.eq_closed h.links_eq_zero]
    exact h
  · have hoperand : Takes m (.expr Binding.or e) ks (n.asOperand level Binding.or) :=
      h.loosen hor (Nat.le_refl _) hmember
    have hwhole : Takes m (.expr Binding.conditional e) ks
        ((n.asOperand level Binding.or).loosen Binding.conditional) := .tighter (by decide) hoperand
    rw [Nesting.loosen, if_pos rfl, Nesting.asOperand_levels] at hwhole
    rw [Nesting.whole, if_neg (Nat.ne_of_gt hor)]
    exact hwhole

namespace Expr

open Grammar

variable {α β : Type}

mutual

/-- What reading the canonical text of an expression takes, as an expression of the level at which
it binds. -/
def nesting : Expr α → Nesting
  | ident _ _ => .closed 0
  | literal _ value => .closed (if value.isNegative then 1 else 0)
  | select _ operand _ testOnly =>
    let selected := (operand.nesting.operand operand.binding Binding.member).link 0
    if testOnly then .closed (selected.whole Binding.member) else selected
  | call _ function args =>
    match args with
    | [a, b] =>
      match BinaryOp.ofFunction? function with
      | some op =>
        (a.nesting.operand a.binding op.binding).link
          (b.nesting.operand b.binding (op.binding + 1)).levels
      | none =>
        if function = Operator.index then
          (a.nesting.operand a.binding Binding.member).link (b.nesting.whole b.binding)
        else .closed (levelsOf [a, b])
    | [a] =>
      match UnaryOp.ofFunction? function with
      | some _ => .closed ((a.nesting.operand a.binding Binding.unary).levels + 1)
      | none => .closed (levelsOf [a])
    | [a, b, c] =>
      if function = Operator.conditional then
        .closed (max (a.nesting.operand a.binding Binding.or).levels
          (max (b.nesting.operand b.binding Binding.or).levels (c.nesting.whole c.binding)) + 1)
      else .closed (levelsOf [a, b, c])
    | args => .closed (levelsOf args)
  | invoke _ target _ args =>
    (target.nesting.operand target.binding Binding.member).link (levelsOf args)
  | list _ elements => .closed (levelsOf elements)
  | map _ entries => .closed (levelsOfEntries entries)
  | comprehension _ _ _ range body =>
    (range.nesting.operand range.binding Binding.member).link
      (max 1 (body.nesting.whole body.binding))

/-- The levels that the texts of some expressions take, each as a whole. -/
def levelsOf : List (Expr α) → Nat
  | [] => 0
  | e :: rest => max (e.nesting.whole e.binding) (levelsOf rest)

/-- The levels that the texts of the entries of a map take. -/
def levelsOfEntries : List (Expr α × Expr α) → Nat
  | [] => 0
  | (k, v) :: rest =>
    max (max (k.nesting.whole k.binding) (v.nesting.whole v.binding)) (levelsOfEntries rest)

end

/-- The levels that the canonical text of an expression takes. -/
def levels (e : Expr α) : Nat := e.nesting.whole e.binding

/-! ## Marks do not matter -/

mutual

/-- What a text takes does not look at marks. -/
theorem nesting_remark (f : α → β) : (e : Expr α) → (e.remark f).nesting = e.nesting
  | ident _ _ | literal _ _ => by rw [remark, nesting, nesting]
  | select _ operand _ _ => by
    rw [remark, nesting, nesting, binding_remark, nesting_remark f operand]
  | call _ function args => by
    have hargs := levelsOf_remarkList f args
    rw [remark]
    -- The operators have one, two or three operands, and each form takes levels of its own.
    match args with
    | [] => rfl
    | [a] =>
      have ha := nesting_remark f a
      simp only [remarkList, nesting, levelsOf, binding_remark, ha]
    | [a, b] =>
      have ha := nesting_remark f a
      have hb := nesting_remark f b
      simp only [remarkList, nesting, levelsOf, binding_remark, ha, hb]
    | [a, b, c] =>
      have ha := nesting_remark f a
      have hb := nesting_remark f b
      have hc := nesting_remark f c
      simp only [remarkList, nesting, levelsOf, binding_remark, ha, hb, hc]
    | a :: b :: c :: d :: args =>
      simp only [remarkList, nesting] at hargs ⊢
      rw [hargs]
  | invoke _ target _ args => by
    rw [remark, nesting, nesting, binding_remark, nesting_remark f target,
      levelsOf_remarkList f args]
  | list _ elements => by rw [remark, nesting, nesting, levelsOf_remarkList f elements]
  | map _ entries => by rw [remark, nesting, nesting, levelsOfEntries_remarkEntries f entries]
  | comprehension _ _ _ range body => by
    rw [remark, nesting, nesting, binding_remark, binding_remark, nesting_remark f range,
      nesting_remark f body]

/-- The levels of expressions do not depend on the marks. -/
theorem levelsOf_remarkList (f : α → β) :
    (es : List (Expr α)) → levelsOf (remarkList f es) = levelsOf es
  | [] => rfl
  | e :: rest => by
    rw [remarkList, levelsOf, levelsOf, binding_remark, nesting_remark f e,
      levelsOf_remarkList f rest]

/-- The levels of entries do not depend on the marks. -/
theorem levelsOfEntries_remarkEntries (f : α → β) :
    (es : List (Expr α × Expr α)) → levelsOfEntries (remarkEntries f es) = levelsOfEntries es
  | [] => rfl
  | (k, v) :: rest => by
    rw [remarkEntries, levelsOfEntries, levelsOfEntries, binding_remark, binding_remark,
      nesting_remark f k, nesting_remark f v, levelsOfEntries_remarkEntries f rest]

end

/-- A tree takes the levels of its shape. -/
theorem levels_bare (e : Expr α) : e.bare.levels = e.levels := by
  rw [levels, bare, binding_remark, nesting_remark, levels]

/-! ## Each construct -/

/-- The nesting of an operator between operands, a link of the chain that its left operand may be.
-/
theorem nesting_binary (op : BinaryOp) (l r : Expr Unit) :
    (call () op.function [l, r]).nesting =
      (l.nesting.operand l.binding op.binding).link
        (r.nesting.operand r.binding (op.binding + 1)).levels := by
  have hop : BinaryOp.ofFunction? op.function = some op := by cases op <;> decide
  rw [nesting]
  simp only [hop]

/-- The nesting of an operator before its operand. -/
theorem nesting_unary (op : UnaryOp) (e : Expr Unit) :
    (call () op.function [e]).nesting =
      .closed ((e.nesting.operand e.binding Binding.unary).levels + 1) := by
  have hop : UnaryOp.ofFunction? op.function = some op := by cases op <;> decide
  rw [nesting]
  simp only [hop]

/-- The nesting of an index, a link of the chain that its operand may be. -/
theorem nesting_index (e i : Expr Unit) :
    (call () Operator.index [e, i]).nesting =
      (e.nesting.operand e.binding Binding.member).link i.levels := by
  have hop : BinaryOp.ofFunction? Operator.index = none := by decide
  rw [nesting]
  simp only [hop, if_true]
  rfl

/-- The nesting of a conditional, whose parts are all below its level. -/
theorem nesting_conditional (c t e : Expr Unit) :
    (call () Operator.conditional [c, t, e]).nesting =
      .closed (max (c.nesting.operand c.binding Binding.or).levels
        (max (t.nesting.operand t.binding Binding.or).levels e.levels) + 1) := by
  rw [nesting]
  simp only [if_true]
  rfl

/-- A call of a name takes what its arguments take. -/
theorem nesting_call {name : String} (h : IsName name) (args : List (Expr Unit)) :
    (call () name args).nesting = .closed (levelsOf args) := by
  obtain ⟨hbinary, hunary, hindex, hconditional⟩ := notOperator_of_isName h
  match args with
  | [] => rfl
  | [a] => simp only [nesting, hunary]
  | [a, b] => simp only [nesting, hbinary, hindex, if_false]
  | [a, b, c] => simp only [nesting, hconditional, if_false]
  | a :: b :: c :: d :: args => rw [nesting] <;> simp

/-! ## Lists of expressions -/

/-- Expressions between commas take what each of them takes. -/
theorem takes_items {m : Bool} {es : List (Expr Unit)} {ks : List Kind}
    (h : Separated (fun e ks => Takes m (.expr Binding.conditional e) ks (.closed e.levels)) es
      ks) : Takes m (.items es) ks (.closed (levelsOf es)) := by
  induction h with
  | nil => exact .noItems
  | @last e ks h =>
    have hlast := Takes.lastItem h
    rw [levelsOf, levelsOf, Nat.max_zero]
    exact hlast
  | more h _ ih => exact .moreItems h ih

/-- Entries between commas take what each key and each value takes. -/
theorem takes_entries {m : Bool} {es : List (Expr Unit × Expr Unit)} {ks : List Kind}
    (h : Separated (IsEntry fun e ks => Takes m (.expr Binding.conditional e) ks (.closed e.levels))
      es ks) : Takes m (.entries es) ks (.closed (levelsOfEntries es)) := by
  induction h with
  | nil => exact .noEntries
  | @last e ks h =>
    obtain ⟨k, v⟩ := e
    obtain ⟨ks₁, ks₂, rfl, hk, hv⟩ := h
    have hlast := Takes.lastEntry hk hv
    rw [levelsOfEntries, levelsOfEntries, Nat.max_zero]
    exact hlast
  | @more e es ks₁ ks₂ h _ ih =>
    obtain ⟨k, v⟩ := e
    obtain ⟨ks₁, ks₂, rfl, hk, hv⟩ := h
    rw [List.append_assoc, List.cons_append]
    exact .moreEntries hk hv ih

end Expr

end CelShell
