import CelShell.Expr.Printer
import CelShell.Proofs.Grammar.Run
import CelShell.Proofs.Token.Lexing

/-!
# Texts of expressions, by their outermost construct

How the printer writes each construct, and how tightly the construct binds. An operator is written
with its operands in place; a call of any other name is written with its arguments in brackets, and
this holds of the macros as well, since `has` and the loops are written as the calls that they were
read from. None of it looks at marks, and neither does the comparison of shapes.
-/

namespace CelShell

namespace Expr

variable {α β γ δ : Type}

/-! ## Lists of expressions -/

/-- The texts of expressions, one expression after the other. -/
theorem textsOf_eq (es : List (Expr α)) : textsOf es = es.map text := by
  induction es with
  | nil => rfl
  | cons e rest ih => rw [textsOf, ih, List.map_cons]

/-- The text of an entry of a map. -/
def entryText (e : Expr α × Expr α) : String := e.1.text ++ ": " ++ e.2.text

/-- The texts of entries, one entry after the other. -/
theorem textsOfEntries_eq (es : List (Expr α × Expr α)) :
    textsOfEntries es = es.map entryText := by
  induction es with
  | nil => rfl
  | cons e rest ih => rw [textsOfEntries, ih, List.map_cons, entryText]

/-- Expressions that are each the same as themselves are so as a list. -/
theorem sameList_self {es : List (Expr α)} (h : ∀ e ∈ es, e.same e = true) :
    sameList es es = true := by
  induction es with
  | nil => rfl
  | cons e rest ih =>
    obtain ⟨he, hrest⟩ := List.forall_mem_cons.1 h
    rw [sameList, he, ih hrest, Bool.and_self]

/-- Entries that are each the same as themselves are so as a list. -/
theorem sameEntries_self {es : List (Expr α × Expr α)}
    (h : ∀ e ∈ es, e.1.same e.1 = true ∧ e.2.same e.2 = true) : sameEntries es es = true := by
  induction es with
  | nil => rfl
  | cons e rest ih =>
    obtain ⟨he, hrest⟩ := List.forall_mem_cons.1 h
    rw [sameEntries, he.1, he.2, ih hrest, Bool.and_self, Bool.and_self]

/-! ## Marks do not matter -/

/-- How tightly an expression binds does not depend on the marks. -/
theorem binding_remark (f : α → β) (e : Expr α) : (e.remark f).binding = e.binding := by
  cases e with
  | call m function args =>
    rw [remark]
    -- An operator has up to three operands, and a call with more arguments is none.
    rcases args with _ | ⟨_, _ | ⟨_, _ | ⟨_, _ | ⟨_, _⟩⟩⟩⟩ <;> rfl
  | _ => rw [remark]; rfl

mutual

/-- The text of a tree is that of its shape. -/
theorem text_remark (f : α → β) : (e : Expr α) → (e.remark f).text = e.text
  | ident _ _ | literal _ _ => by rw [remark, text, text]
  | select _ operand _ _ => by
    rw [remark, text, text, binding_remark, text_remark f operand]
  | call _ function args => by
    have hargs := textsOf_remarkList f args
    rw [remark]
    -- The operators have one, two or three operands, and each form has a text of its own.
    match args with
    | [] => rfl
    | [a] =>
      have ha := text_remark f a
      simp only [remarkList, text, binding_remark, ha]
    | [a, b] =>
      have ha := text_remark f a
      have hb := text_remark f b
      simp only [remarkList, text, textsOf, binding_remark, ha, hb]
    | [a, b, c] =>
      have ha := text_remark f a
      have hb := text_remark f b
      have hc := text_remark f c
      simp only [remarkList, text, textsOf, binding_remark, ha, hb, hc]
    | a :: b :: c :: d :: args =>
      simp only [remarkList, text] at hargs ⊢
      rw [hargs]
  | invoke _ target _ args => by
    rw [remark, text, text, binding_remark, text_remark f target, textsOf_remarkList f args]
  | list _ elements => by rw [remark, text, text, textsOf_remarkList f elements]
  | map _ entries => by rw [remark, text, text, textsOfEntries_remarkEntries f entries]
  | comprehension _ _ _ range body => by
    rw [remark, text, text, binding_remark, text_remark f range, text_remark f body]

/-- The texts of expressions do not depend on the marks. -/
theorem textsOf_remarkList (f : α → β) :
    (es : List (Expr α)) → textsOf (remarkList f es) = textsOf es
  | [] => rfl
  | e :: rest => by
    rw [remarkList, textsOf, textsOf, text_remark f e, textsOf_remarkList f rest]

/-- The texts of entries do not depend on the marks. -/
theorem textsOfEntries_remarkEntries (f : α → β) :
    (es : List (Expr α × Expr α)) → textsOfEntries (remarkEntries f es) = textsOfEntries es
  | [] => rfl
  | (k, v) :: rest => by
    rw [remarkEntries, textsOfEntries, textsOfEntries, text_remark f k, text_remark f v,
      textsOfEntries_remarkEntries f rest]

end

mutual

/-- The comparison of shapes does not look at marks. -/
theorem same_remark (f : α → β) (g : γ → δ) :
    (e : Expr α) → (e' : Expr γ) → (e.remark f).same (e'.remark g) = e.same e'
  | ident _ _, e' | literal _ _, e' => by cases e' <;> rfl
  | select _ operand _ _, e' => by
    cases e' with
    | select _ operand' _ _ => simp only [remark, same, same_remark f g operand operand']
    | _ => rfl
  | call _ _ args, e' => by
    cases e' with
    | call _ _ args' => simp only [remark, same, sameList_remarkList f g args args']
    | _ => rfl
  | invoke _ target _ args, e' => by
    cases e' with
    | invoke _ target' _ args' =>
      simp only [remark, same, same_remark f g target target', sameList_remarkList f g args args']
    | _ => rfl
  | list _ elements, e' => by
    cases e' with
    | list _ elements' => simp only [remark, same, sameList_remarkList f g elements elements']
    | _ => rfl
  | map _ entries, e' => by
    cases e' with
    | map _ entries' => simp only [remark, same, sameEntries_remarkEntries f g entries entries']
    | _ => rfl
  | comprehension _ _ _ range body, e' => by
    cases e' with
    | comprehension _ _ _ range' body' =>
      simp only [remark, same, same_remark f g range range', same_remark f g body body']
    | _ => rfl

/-- Whether expressions are the same does not depend on the marks. -/
theorem sameList_remarkList (f : α → β) (g : γ → δ) :
    (es : List (Expr α)) → (es' : List (Expr γ)) →
      sameList (remarkList f es) (remarkList g es') = sameList es es'
  | [], es' => by cases es' <;> rfl
  | e :: rest, [] => rfl
  | e :: rest, e' :: rest' => by
    simp only [remarkList, sameList, same_remark f g e e', sameList_remarkList f g rest rest']

/-- Whether entries are the same does not depend on the marks. -/
theorem sameEntries_remarkEntries (f : α → β) (g : γ → δ) :
    (es : List (Expr α × Expr α)) → (es' : List (Expr γ × Expr γ)) →
      sameEntries (remarkEntries f es) (remarkEntries g es') = sameEntries es es'
  | [], es' => by cases es' <;> rfl
  | (k, v) :: rest, [] => rfl
  | (k, v) :: rest, (k', v') :: rest' => by
    simp only [remarkEntries, sameEntries, same_remark f g k k', same_remark f g v v',
      sameEntries_remarkEntries f g rest rest']

end

/-! ## Operators -/

/-- The text of an operator between operands. -/
theorem text_binary (op : BinaryOp) (l r : Expr Unit) :
    (call () op.function [l, r]).text =
      parenthesize l.binding op.binding l.text ++ " " ++ op.text ++ " "
        ++ parenthesize r.binding (op.binding + 1) r.text := by
  have hop : BinaryOp.ofFunction? op.function = some op := by cases op <;> decide
  rw [text]
  simp only [hop]

/-- An operator between operands binds as the operator does. -/
theorem binding_binary (op : BinaryOp) (l r : Expr Unit) :
    (call () op.function [l, r]).binding = op.binding := by
  have hop : BinaryOp.ofFunction? op.function = some op := by cases op <;> decide
  rw [binding, hop]
  rfl

/-- The text of an operator before its operand. -/
theorem text_unary (op : UnaryOp) (e : Expr Unit) :
    (call () op.function [e]).text = op.text ++ parenthesize e.binding Binding.unary e.text := by
  have hop : UnaryOp.ofFunction? op.function = some op := by cases op <;> decide
  rw [text]
  simp only [hop]

/-- An operator before its operand binds as every such operator does. -/
theorem binding_unary (op : UnaryOp) (e : Expr Unit) :
    (call () op.function [e]).binding = Binding.unary := by
  have hop : (UnaryOp.ofFunction? op.function).isSome = true := by cases op <;> decide
  rw [binding, if_pos hop]

/-- The text of an index. -/
theorem text_index (e i : Expr Unit) :
    (call () Operator.index [e, i]).text =
      parenthesize e.binding Binding.member e.text ++ "[" ++ i.text ++ "]" := by
  have hop : BinaryOp.ofFunction? Operator.index = none := by decide
  rw [text]
  simp only [hop, if_true]

/-- The text of a conditional. -/
theorem text_conditional (c t e : Expr Unit) :
    (call () Operator.conditional [c, t, e]).text =
      parenthesize c.binding Binding.or c.text ++ " ? " ++ parenthesize t.binding Binding.or t.text
        ++ " : " ++ e.text := by
  rw [text]
  simp only [if_true]

/-! ## Calls by name -/

/-- No operator calls a function with a name. -/
theorem ne_of_isName {name : String} (h : IsName name) {s : String}
    (hs : s.toList.any (fun c => !Unicode.isIdentifierStart c && !Unicode.isIdentifierContinue c)
      = true) : name ≠ s := by
  rintro rfl
  obtain ⟨⟨c, text, hname, hstart, htext⟩, -⟩ := h
  obtain ⟨d, hd, hnot⟩ := List.any_eq_true.1 hs
  rw [Bool.and_eq_true, Bool.not_eq_true', Bool.not_eq_true'] at hnot
  obtain ⟨hnotStart, hnotContinue⟩ := hnot
  -- The character that no name may have would be the first one or a later one.
  rw [hname, List.mem_cons] at hd
  rcases hd with rfl | hd
  · rw [hstart] at hnotStart
    cases hnotStart
  · rw [htext d hd] at hnotContinue
    cases hnotContinue

/-- What is written for arguments. -/
def argsText (args : List (Expr α)) : String := ", ".intercalate (args.map text)

/-- A name calls no operator. -/
theorem notOperator_of_isName {name : String} (h : IsName name) :
    BinaryOp.ofFunction? name = none ∧ UnaryOp.ofFunction? name = none ∧ name ≠ Operator.index ∧
      name ≠ Operator.conditional := by
  refine ⟨?_, ?_, ne_of_isName h (by decide), ne_of_isName h (by decide)⟩
  · -- The name of each operator holds a character that no name may have.
    rw [BinaryOp.ofFunction?, List.find?_eq_none]
    intro op _ hop
    rw [beq_iff_eq] at hop
    refine ne_of_isName h ?_ hop.symm
    cases op <;> decide
  · rw [UnaryOp.ofFunction?, List.find?_eq_none]
    intro op _ hop
    rw [beq_iff_eq] at hop
    refine ne_of_isName h ?_ hop.symm
    cases op <;> decide

/-- A call of a name is written as it is read, and binds tightest. -/
theorem text_call {name : String} (h : IsName name) (args : List (Expr Unit)) :
    (call () name args).text = name ++ "(" ++ argsText args ++ ")" ∧
      (call () name args).binding = Binding.member := by
  obtain ⟨hbinary, hunary, hindex, hconditional⟩ := notOperator_of_isName h
  unfold argsText
  match args with
  | [] => exact ⟨rfl, rfl⟩
  | [a] => simp [text, binding, hunary]
  | [a, b] => simp [text, binding, hbinary, hindex, textsOf]
  | [a, b, c] => simp [text, binding, hconditional, textsOf]
  | a :: b :: c :: d :: args =>
    rw [text, textsOf_eq, binding]
    · exact ⟨rfl, rfl⟩
    all_goals simp

/-- Nothing binds tighter than a chain of members. -/
theorem binding_le (e : Expr α) : e.binding ≤ Binding.member := by
  cases e with
  | call m function args =>
    -- Only calls with one, two or three arguments can be operators.
    match args with
    | [] => exact Nat.le_refl _
    | [a] =>
      rw [binding]
      split <;> decide
    | [a, b] =>
      rw [binding]
      cases BinaryOp.ofFunction? function with
      | none => exact Nat.le_refl _
      | some op => cases op <;> decide
    | [a, b, c] =>
      rw [binding]
      split <;> decide
    | _ :: _ :: _ :: _ :: _ => exact Nat.le_refl _
  | literal m value =>
    rw [binding]
    split <;> decide
  | _ => exact Nat.le_refl _

/-- Nothing binds looser than a conditional. -/
theorem conditional_le_binding (e : Expr α) : Binding.conditional ≤ e.binding := by
  cases e with
  | call m function args =>
    -- Only calls with one, two or three arguments can be operators.
    match args with
    | [] => exact (by decide : Binding.conditional ≤ Binding.member)
    | [a] =>
      rw [binding]
      split <;> decide
    | [a, b] =>
      rw [binding]
      cases BinaryOp.ofFunction? function with
      | none => exact (by decide : Binding.conditional ≤ Binding.member)
      | some op => cases op <;> decide
    | [a, b, c] =>
      rw [binding]
      split <;> decide
    | _ :: _ :: _ :: _ :: _ => exact (by decide : Binding.conditional ≤ Binding.member)
  | literal m value =>
    rw [binding]
    split <;> decide
  | _ => exact (by decide : Binding.conditional ≤ Binding.member)

end Expr

end CelShell
