import CelShell.Proofs.Eval.Search

/-!
# Formulas follow three-valued logic

A formula joins leaves, which are any expressions, by `&&`, `||` and `!`. The outcome of a leaf is
read as a truth value or, if it is an error or another value, as unknown (`Evaluation.reading`).
What a formula evaluates to is then what Kleene's strong connectives make of the readings of its
leaves (`Formula.reading_eval`). The difference between an error and a value that is no truth value
shows at a leaf alone: the value of every connective and of every negation is a truth value.

The connectives of that logic are commutative and associative and keep De Morgan's laws, so formulas
that these laws turn into each other have the same values (`Formula.eval_follows_kleene`).
-/

namespace CelShell

/-! ## Kleene's strong connectives -/

namespace Kleene

/-- Negation: what is unknown stays unknown. -/
def not : Option Bool → Option Bool
  | some t => some !t
  | none => none

/-- Conjunction: one side that is false decides, whatever the other is. -/
def and : Option Bool → Option Bool → Option Bool
  | some false, _ => some false
  | _, some false => some false
  | some true, some true => some true
  | _, _ => none

/-- Disjunction: one side that is true decides, whatever the other is. -/
def or : Option Bool → Option Bool → Option Bool
  | some true, _ => some true
  | _, some true => some true
  | some false, some false => some false
  | _, _ => none

variable {p q : Option Bool}

/-- A conjunction is false if one of its sides is. -/
theorem and_eq_false_iff : and p q = some false ↔ p = some false ∨ q = some false := by
  rcases p with _ | _ | _ <;> rcases q with _ | _ | _ <;> decide

/-- A conjunction is true if both of its sides are. -/
theorem and_eq_true_iff : and p q = some true ↔ p = some true ∧ q = some true := by
  rcases p with _ | _ | _ <;> rcases q with _ | _ | _ <;> decide

/-- A disjunction is true if one of its sides is. -/
theorem or_eq_true_iff : or p q = some true ↔ p = some true ∨ q = some true := by
  rcases p with _ | _ | _ <;> rcases q with _ | _ | _ <;> decide

/-- A disjunction is false if both of its sides are. -/
theorem or_eq_false_iff : or p q = some false ↔ p = some false ∧ q = some false := by
  rcases p with _ | _ | _ <;> rcases q with _ | _ | _ <;> decide

/-- Conjunction does not depend on the order of its sides. -/
theorem and_comm (p q : Option Bool) : and p q = and q p := by
  rcases p with _ | _ | _ <;> rcases q with _ | _ | _ <;> rfl

/-- Disjunction does not depend on the order of its sides. -/
theorem or_comm (p q : Option Bool) : or p q = or q p := by
  rcases p with _ | _ | _ <;> rcases q with _ | _ | _ <;> rfl

/-- Conjunctions in a row can be grouped either way. -/
theorem and_assoc (p q r : Option Bool) : and (and p q) r = and p (and q r) := by
  rcases p with _ | _ | _ <;> rcases q with _ | _ | _ <;> rcases r with _ | _ | _ <;> rfl

/-- Disjunctions in a row can be grouped either way. -/
theorem or_assoc (p q r : Option Bool) : or (or p q) r = or p (or q r) := by
  rcases p with _ | _ | _ <;> rcases q with _ | _ | _ <;> rcases r with _ | _ | _ <;> rfl

/-- The negation of a conjunction. -/
theorem not_and (p q : Option Bool) : not (and p q) = or (not p) (not q) := by
  rcases p with _ | _ | _ <;> rcases q with _ | _ | _ <;> rfl

/-- The negation of a disjunction. -/
theorem not_or (p q : Option Bool) : not (or p q) = and (not p) (not q) := by
  rcases p with _ | _ | _ <;> rcases q with _ | _ | _ <;> rfl

end Kleene

/-! ## Outcomes as readings -/

namespace Evaluation

/-- The truth value that an outcome is; an error or another value is unknown. -/
def reading : Except EvalError Value → Option Bool
  | .ok (.bool t) => some t
  | _ => none

/-- What a negation makes of the outcome of its operand. -/
def negated : Except EvalError Value → Except EvalError Value
  | .ok v => UnaryOp.not.apply v
  | .error e => .error e

variable {r l : Except EvalError Value} {function : String}

/-- A result is read as a truth value if it is that boolean. -/
theorem reading_eq_some_iff {t : Bool} : reading r = some t ↔ r = .ok (.bool t) := by
  rcases r with e | v
  · simp [reading]
  · cases v <;> simp [reading]

/-- An outcome that is a truth value or an error is unknown only if it is an error. -/
theorem reading_eq_none_iff (h : IsTruth r) : reading r = none ↔ ∃ e, r = .error e := by
  rcases r with e | v
  · exact iff_of_true rfl ⟨e, rfl⟩
  · obtain ⟨t, rfl⟩ := h v rfl
    exact iff_of_false nofun nofun

/-- A negation is read as the negation of what is read. -/
theorem reading_negated : reading (negated r) = Kleene.not (reading r) := by
  rcases r with e | v
  · rfl
  · cases v <;> rfl

/-- A negation of anything gives a boolean or an error. -/
theorem isTruth_negated : IsTruth (negated r) := by
  rcases r with e | v
  · exact nofun
  · cases v with
    | bool t => exact fun w hw => ⟨!t, (Except.ok.inj hw).symm⟩
    | _ => exact nofun

/-- A negation does not end the session unless what it negates does. -/
theorem negated_ne_quit (h : r ≠ .error .quit) : negated r ≠ .error .quit := by
  rcases r with e | v
  · exact h
  · cases v <;> exact nofun

/-- A conjunction is read as that of the readings. -/
theorem reading_conjunction (hl : l ≠ .error .quit) (hr : r ≠ .error .quit) :
    reading (connected function false l r) = Kleene.and (reading l) (reading r) := by
  refine Option.ext fun t => ?_
  cases t with
  | false =>
    rw [reading_eq_some_iff, connected_eq_absorbing_iff hl hr, Kleene.and_eq_false_iff,
      reading_eq_some_iff, reading_eq_some_iff]
  | true =>
    have hall : connected function false l r = .ok (.bool true) ↔
        l = .ok (.bool true) ∧ r = .ok (.bool true) := connected_eq_not_absorbing_iff hl hr
    rw [reading_eq_some_iff, Kleene.and_eq_true_iff, reading_eq_some_iff, reading_eq_some_iff]
    exact hall

/-- A disjunction is read as that of the readings. -/
theorem reading_disjunction (hl : l ≠ .error .quit) (hr : r ≠ .error .quit) :
    reading (connected function true l r) = Kleene.or (reading l) (reading r) := by
  refine Option.ext fun t => ?_
  cases t with
  | true =>
    rw [reading_eq_some_iff, connected_eq_absorbing_iff hl hr, Kleene.or_eq_true_iff,
      reading_eq_some_iff, reading_eq_some_iff]
  | false =>
    have hall : connected function true l r = .ok (.bool false) ↔
        l = .ok (.bool false) ∧ r = .ok (.bool false) := connected_eq_not_absorbing_iff hl hr
    rw [reading_eq_some_iff, Kleene.or_eq_false_iff, reading_eq_some_iff, reading_eq_some_iff]
    exact hall

end Evaluation

/-! ## Formulas -/

/-- What is built from expressions by the logical operators. -/
inductive Formula (α : Type) where
  /-- An expression of any kind. -/
  | leaf (e : Expr α)
  /-- A negation. -/
  | not (mark : α) (f : Formula α)
  /-- A conjunction. -/
  | and (mark : α) (f g : Formula α)
  /-- A disjunction. -/
  | or (mark : α) (f g : Formula α)

namespace Formula

open Evaluation

variable {α : Type}

/-- The expression that a formula is. -/
def expr : Formula α → Expr α
  | leaf e => e
  | not mark f => .call mark UnaryOp.not.function [f.expr]
  | and mark f g => .call mark BinaryOp.and.function [f.expr, g.expr]
  | or mark f g => .call mark BinaryOp.or.function [f.expr, g.expr]

/-- The leaves, from left to right. -/
def leaves : Formula α → List (Expr α)
  | leaf e => [e]
  | not _ f => f.leaves
  | and _ f g | or _ f g => f.leaves ++ g.leaves

/-- A formula has an operator unless it is a leaf. -/
def HasOperator : Formula α → Prop
  | leaf _ => False
  | not .. | and .. | or .. => True

/-- The value of a formula in Kleene's logic, by the readings of its leaves. -/
def value (read : Expr α → Option Bool) : Formula α → Option Bool
  | leaf e => read e
  | not _ f => Kleene.not (f.value read)
  | and _ f g => Kleene.and (f.value read) (g.value read)
  | or _ f g => Kleene.or (f.value read) (g.value read)

/-- Formulas that the laws of the connectives turn into each other, in any of their parts. The marks
of operators may differ. -/
inductive Rearranged : Formula α → Formula α → Prop where
  | refl (f : Formula α) : Rearranged f f
  | symm {f g : Formula α} : Rearranged f g → Rearranged g f
  | trans {f g h : Formula α} : Rearranged f g → Rearranged g h → Rearranged f h
  | not (m n : α) {f g : Formula α} : Rearranged f g → Rearranged (.not m f) (.not n g)
  | and (m n : α) {f f' g g' : Formula α} : Rearranged f f' → Rearranged g g' →
      Rearranged (.and m f g) (.and n f' g')
  | or (m n : α) {f f' g g' : Formula α} : Rearranged f f' → Rearranged g g' →
      Rearranged (.or m f g) (.or n f' g')
  | andComm (m : α) (f g : Formula α) : Rearranged (.and m f g) (.and m g f)
  | orComm (m : α) (f g : Formula α) : Rearranged (.or m f g) (.or m g f)
  | andAssoc (m n : α) (f g h : Formula α) :
      Rearranged (.and m (.and n f g) h) (.and m f (.and n g h))
  | orAssoc (m n : α) (f g h : Formula α) :
      Rearranged (.or m (.or n f g) h) (.or m f (.or n g h))
  /-- The negation of a conjunction is the disjunction of the negations. -/
  | notAnd (m n : α) (f g : Formula α) :
      Rearranged (.not m (.and n f g)) (.or n (.not m f) (.not m g))
  /-- The negation of a disjunction is the conjunction of the negations. -/
  | notOr (m n : α) (f g : Formula α) :
      Rearranged (.not m (.or n f g)) (.and n (.not m f) (.not m g))

namespace Rearranged

variable {f g : Formula α}

/-- The laws neither drop a leaf nor add one. -/
theorem mem_leaves_iff (h : Rearranged f g) (e : Expr α) : e ∈ f.leaves ↔ e ∈ g.leaves := by
  induction h with
  | refl => rfl
  | symm _ ih => exact ih.symm
  | trans _ _ ihf ihg => exact ihf.trans ihg
  | not _ _ _ ih => exact ih
  | and _ _ _ _ ihf ihg | or _ _ _ _ ihf ihg =>
    simp only [leaves, List.mem_append, ihf, ihg]
  | andComm | orComm => simp only [leaves, List.mem_append, Or.comm]
  | andAssoc | orAssoc => simp only [leaves, List.mem_append, or_assoc]
  | notAnd | notOr => rfl

/-- The laws relate no leaf to a formula with an operator. -/
theorem hasOperator_iff (h : Rearranged f g) : f.HasOperator ↔ g.HasOperator := by
  induction h with
  | refl => rfl
  | symm _ ih => exact ih.symm
  | trans _ _ ihf ihg => exact ihf.trans ihg
  | _ => rfl

/-- The laws hold in Kleene's logic. -/
theorem value_eq (h : Rearranged f g) (read : Expr α → Option Bool) :
    f.value read = g.value read := by
  induction h with
  | refl => rfl
  | symm _ ih => exact ih.symm
  | trans _ _ ihf ihg => exact ihf.trans ihg
  | not _ _ _ ih => simp only [value, ih]
  | and _ _ _ _ ihf ihg | or _ _ _ _ ihf ihg => simp only [value, ihf, ihg]
  | andComm => exact Kleene.and_comm _ _
  | orComm => exact Kleene.or_comm _ _
  | andAssoc => exact Kleene.and_assoc _ _ _
  | orAssoc => exact Kleene.or_assoc _ _ _
  | notAnd => exact Kleene.not_and _ _
  | notOr => exact Kleene.not_or _ _

end Rearranged

/-! ## Evaluation -/

variable {b : Bindings} {values scope : Table String Value} {f : Formula α}

/-- A negation goes by the outcome of its operand, unless the host binds its name. -/
theorem eval_not (hnot : Table.get? b UnaryOp.not.function = none) (mark : α) (e : Expr α) :
    (Expr.call mark UnaryOp.not.function [e]).eval b values scope =
      negated (e.eval b values scope) := by
  -- Nothing stands in for the built-in negation.
  have hbuiltin : ∀ v, b.call UnaryOp.not.function [v] = UnaryOp.not.apply v := by
    intro v
    unfold Bindings.call
    rw [hnot]
    rfl
  -- A call with one argument is no connective, so the argument is evaluated first.
  have hcall : (Expr.call mark UnaryOp.not.function [e]).evaluate (b.interface values) scope =
      e.evaluate (b.interface values) scope >>= fun v =>
        (b.interface values).call UnaryOp.not.function [v] := by
    have hname : BinaryOp.ofFunction? UnaryOp.not.function = none := by decide
    rw [Expr.evaluate, Expr.suspended, Expr.suspended]
    simp [Evaluation.call, hname, all]
  unfold Expr.eval
  rw [hcall]
  cases h : (e.evaluate (b.interface values) scope).run with
  | error error =>
    rw [ExceptT.run_bind, h]
    rfl
  | ok v =>
    rw [run_bind_ok h]
    exact hbuiltin v

/-- A formula does not ask to end the session if no leaf does. -/
theorem eval_ne_quit (hnot : Table.get? b UnaryOp.not.function = none)
    (hquit : ∀ e ∈ f.leaves, e.eval b values scope ≠ .error .quit) :
    f.expr.eval b values scope ≠ .error .quit := by
  -- The connectives hide errors of operands, but this one is no error to hide.
  induction f with
  | leaf e => exact hquit e (List.mem_singleton_self e)
  | not mark f ih =>
    rw [expr, eval_not hnot]
    exact negated_ne_quit (ih hquit)
  | and mark f g ihf ihg =>
    obtain ⟨hf, hg⟩ := List.forall_mem_append.mp hquit
    rw [expr, Expr.eval_connective (Or.inl ⟨rfl, rfl, rfl⟩)]
    exact connected_ne_quit (ihf hf) (ihg hg)
  | or mark f g ihf ihg =>
    obtain ⟨hf, hg⟩ := List.forall_mem_append.mp hquit
    rw [expr, Expr.eval_connective (Or.inr ⟨rfl, rfl, rfl⟩)]
    exact connected_ne_quit (ihf hf) (ihg hg)

/-- The outcome of a formula is read as the value of the formula for the readings of its leaves. -/
theorem reading_eval (hnot : Table.get? b UnaryOp.not.function = none)
    (hquit : ∀ e ∈ f.leaves, e.eval b values scope ≠ .error .quit) :
    reading (f.expr.eval b values scope) =
      f.value fun e => reading (e.eval b values scope) := by
  induction f with
  | leaf e => rfl
  | not mark f ih =>
    rw [expr, eval_not hnot, reading_negated, ih hquit]
    rfl
  | and mark f g ihf ihg =>
    obtain ⟨hf, hg⟩ := List.forall_mem_append.mp hquit
    rw [expr, Expr.eval_connective (Or.inl ⟨rfl, rfl, rfl⟩),
      reading_conjunction (eval_ne_quit hnot hf) (eval_ne_quit hnot hg), ihf hf, ihg hg]
    rfl
  | or mark f g ihf ihg =>
    obtain ⟨hf, hg⟩ := List.forall_mem_append.mp hquit
    rw [expr, Expr.eval_connective (Or.inr ⟨rfl, rfl, rfl⟩),
      reading_disjunction (eval_ne_quit hnot hf) (eval_ne_quit hnot hg), ihf hf, ihg hg]
    rfl

/-- The value of a formula is a truth value, unless the formula is a leaf. -/
theorem isTruth_eval (hnot : Table.get? b UnaryOp.not.function = none) (hf : f.HasOperator) :
    IsTruth (f.expr.eval b values scope) := by
  cases f with
  | leaf => exact hf.elim
  | not =>
    rw [expr, eval_not hnot]
    exact isTruth_negated
  | and =>
    rw [expr, Expr.eval_connective (Or.inl ⟨rfl, rfl, rfl⟩)]
    exact isTruth_connected
  | or =>
    rw [expr, Expr.eval_connective (Or.inr ⟨rfl, rfl, rfl⟩)]
    exact isTruth_connected

/-- A value of a formula is the truth value that Kleene's logic gives it. -/
theorem eval_eq_ok_iff (hf : f.HasOperator) (hnot : Table.get? b UnaryOp.not.function = none)
    (hquit : ∀ e ∈ f.leaves, e.eval b values scope ≠ .error .quit) (v : Value) :
    f.expr.eval b values scope = .ok v ↔
      ∃ t, v = .bool t ∧ f.value (fun e => reading (e.eval b values scope)) = some t := by
  simp only [← reading_eval hnot hquit, reading_eq_some_iff]
  constructor
  · intro h
    obtain ⟨t, rfl⟩ := isTruth_eval hnot hf v h
    exact ⟨t, rfl, h⟩
  · rintro ⟨t, rfl, h⟩
    exact h

/-- Formulas are three-valued. With leaves that do not ask to end the session, and with the built-in
negation, a formula that has an operator evaluates to a truth value exactly if Kleene's strong logic
gives it, where a leaf counts as unknown if it fails or is no truth value, and it fails exactly if
that logic leaves it unknown. So a formula keeps its value when the laws of the connectives
rearrange it: when operands change places or are grouped in another way, or a negation moves
inward. -/
theorem eval_follows_kleene (f : Formula α) (hf : f.HasOperator) (b : Bindings)
    (values scope : Table String Value) (hnot : Table.get? b UnaryOp.not.function = none)
    (hquit : ∀ e ∈ f.leaves, e.eval b values scope ≠ .error .quit) :
    let result := f.expr.eval b values scope
    let value := f.value fun e => reading (e.eval b values scope)
    (∀ t, result = .ok (.bool t) ↔ value = some t) ∧
      ((∃ error, result = .error error) ↔ value = none) ∧
      ∀ g, Rearranged f g → ∀ v, result = .ok v ↔ g.expr.eval b values scope = .ok v := by
  refine ⟨fun t => ?_, ?_, fun g hfg v => ?_⟩
  · rw [← reading_eval hnot hquit, reading_eq_some_iff]
  · rw [← reading_eval hnot hquit, reading_eq_none_iff (isTruth_eval hnot hf)]
  · -- The laws move leaves about and make no new ones.
    have hg : ∀ e ∈ g.leaves, e.eval b values scope ≠ .error .quit := fun e he =>
      hquit e ((hfg.mem_leaves_iff e).mpr he)
    rw [eval_eq_ok_iff hf hnot hquit, eval_eq_ok_iff (hfg.hasOperator_iff.mp hf) hnot hg,
      hfg.value_eq]

/-- A quotient by zero and a number are unknown: together they fail, and beside a false operand they
do not matter, on either side of it. -/
theorem eval_follows_kleene_unknowns :
    let fails : Formula Unit :=
      .leaf (.call () "_/_" [.literal () (.int 1), .literal () (.int 0)])
    let number : Formula Unit := .leaf (.literal () (.int 1))
    let wrong : Formula Unit := .leaf (.literal () (.bool false))
    (∃ e, (Formula.or () fails number).expr.eval [] [] [] = .error e) ∧
      (Formula.and () (.and () fails (.not () number)) wrong).expr.eval [] [] [] =
        .ok (.bool false) ∧
      (Formula.and () wrong (.and () fails (.not () number))).expr.eval [] [] [] =
        .ok (.bool false) := by
  intro fails number wrong
  -- No leaf asks to end the session.
  have hquit : ∀ e ∈ [fails.expr, number.expr, wrong.expr], e.eval [] [] [] ≠ .error .quit := by
    intro e he
    simp only [List.mem_cons, List.not_mem_nil, or_false] at he
    rcases he with rfl | rfl | rfl <;> intro h <;> cases h
  have hboth := (Formula.or () fails number).eval_follows_kleene trivial [] [] [] rfl
    fun e he => hquit e (List.mem_append_left [wrong.expr] he)
  have hall := (Formula.and () (.and () fails (.not () number)) wrong).eval_follows_kleene trivial
    [] [] [] rfl hquit
  have hvalue := (hall.1 false).mpr rfl
  exact ⟨hboth.2.1.mpr rfl, hvalue, (hall.2.2 _ (.andComm () _ _) _).mp hvalue⟩

end Formula

end CelShell
