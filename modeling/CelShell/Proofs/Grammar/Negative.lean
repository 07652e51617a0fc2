import CelShell.Proofs.Grammar.Recognition
import CelShell.Proofs.Token.Integer

/-!
# Integers behind a minus sign

A minus sign is a token of its own, so no text of an integer has a negative value. What the parser
makes of the sign depends on the constant behind it: one of signed type is negated at once, which
always works because no such text is worth the least int, and one of unsigned type stays below a
call. This holds of a whole text and of an operand anywhere in an expression, as long as the
constant is all of the operand.
-/

namespace CelShell

namespace Grammar

variable {m : Bool}

/-- A constant behind a minus sign is an operand, and takes one level of nesting. -/
theorem takes_negation (v : Literal) :
    Takes m (.expr Binding.unary (negation (.literal () v))) [.symbol .minus, .literal v]
      (.closed 1) :=
  .negate (.tighter (by decide) (.tighter (by decide) .literal))

end Grammar

namespace Parser

open Grammar

/-- A minus sign and a constant are read where an operand is, if no field, call or index of the
constant comes after them. -/
theorem run_unary_negation {budget : Nat} {c : Cursor} {v : Literal} {ks : List Kind}
    (hc : c.kinds = .symbol .minus :: .literal v :: ks) (hend : EndsMember ks) :
    ∃ tree c', (level (budget + 1)).unary c = .ok tree c' ∧
      tree.bare = negation (.literal () v) ∧ c'.kinds = ks := by
  have hreads : ReadsLevel c.macrosOn Binding.unary (negation (.literal () v))
      [.symbol .minus, .literal v] (.closed 1) := takes_reads (takes_negation v)
  have hdecides : Decides (1 ≤ budget + 1) ((level (budget + 1)).unary c)
      (Read c.macrosOn (negation (.literal () v)) ks) := hreads.2 ⟨hc, rfl⟩ hend
  cases hrun : (level (budget + 1)).unary c with
  | ok tree c' =>
    rw [hrun] at hdecides
    obtain ⟨-, hbare, hrest⟩ := hdecides
    exact ⟨tree, c', rfl, hbare, hrest.kinds⟩
  | error e c' =>
    -- One level is enough, so nesting does not stop the parser.
    rw [hrun] at hdecides
    obtain ⟨hdeep, -⟩ := hdecides
    exact absurd (Nat.le_add_left 1 budget) hdeep

end Parser

namespace IntegerText

open Grammar

variable (t : IntegerText)

/-- What the text behind a minus sign stands for: the opposite of its value as a constant, or a call
of the negation on the constant of an unsigned number. -/
inductive IsNegation : Expr Unit → Prop where
  | constant {n : Int64} : t.unsigned = false → n.toInt = -t.value →
      IsNegation (.literal () (.int n))
  | call {n : UInt64} : t.unsigned = true → n.toNat = t.value →
      IsNegation (.call () "-_" [.literal () (.uint n)])

/-- The constant of the text has an opposite if it is signed, and is left alone otherwise. -/
theorem isNegation_negation {v : Literal} (h : t.IsWorth v) :
    t.IsNegation (negation (.literal () v)) := by
  cases h with
  | @int n hunsigned hn =>
    -- The value of a text is not negative, so it is not that of the least int.
    have hmin : n ≠ Int64.minValue := by
      rintro rfl
      rw [Int64.toInt_minValue] at hn
      omega
    have hlt := n.toInt_lt
    have hneg : (-n).toInt = -t.value := by
      rw [Int64.toInt_neg, hn]
      exact Int.bmod_eq_of_le (by omega) (by omega)
    rw [negation, if_neg hmin]
    exact .constant hunsigned hneg
  | uint hunsigned hn => exact .call hunsigned hn

/-- The text behind a minus sign is parsed. -/
theorem exists_parse_minus {v : Literal} (h : Scan.Lexes t.chars [.literal v]) (m : Bool) :
    ∃ tree, Expr.parse ("-" ++ t.text) m = .ok tree ∧
      tree.bare = negation (.literal () v) := by
  have hlexes : Scan.Lexes ("-" ++ t.text).toList [.symbol .minus, .literal v] := by
    have htext : t.text.toList = t.chars := String.toList_ofList
    rw [String.toList_append, htext]
    exact Scan.lexes_symbol .minus trivial h
  obtain ⟨tokens, hlist, hkinds⟩ := hlexes.exists_listFrom .start
  -- A sign before a constant is a level, and so is the whole expression.
  have htakes : Takes m (.expr Binding.conditional (negation (.literal () v)))
      [.symbol .minus, .literal v] (.closed 2) :=
    .tighter (by decide) ((takes_negation v).loosen (by decide) (by decide) (by decide))
  have hlevels : (Nesting.closed 2).levels ≤ maxDepth := by decide
  obtain ⟨tree, htree, hbare⟩ := (Expr.ofTokens_of_takes hkinds htakes).1 hlevels
  refine ⟨tree, ?_, hbare⟩
  rw [Expr.parse, Token.list, hlist]
  exact htree

/-- Integers denote their values. A text whose value is within the limit of its type is the one
token of a constant that is worth it; a minus sign before that token gives the opposite constant, or
a call if the constant is unsigned, in a whole text and wherever an operand may stand. A text whose
value is above the limit is refused as a number that does not fit. -/
theorem denotes_value (t : IntegerText) :
    (t.value ≤ t.limit → ∃ v, t.IsWorth v ∧
      Token.list t.text = .ok [⟨.literal v, t.span⟩, ⟨.eof, ⟨t.span.stop, t.span.stop⟩⟩] ∧
      (∀ m, ∃ tree, Expr.parse ("-" ++ t.text) m = .ok tree ∧ t.IsNegation tree.bare) ∧
      ∀ budget c ks, c.kinds = .symbol .minus :: .literal v :: ks → EndsMember ks →
        ∃ tree c', (Parser.level (budget + 1)).unary c = .ok tree c' ∧
          t.IsNegation tree.bare ∧ c'.kinds = ks) ∧
    (t.limit < t.value →
      ∃ shown, Token.list t.text = .error ⟨.invalidNumber shown, t.span⟩) := by
  obtain ⟨hfits, hrefused⟩ := t.list_text
  refine ⟨fun hle => ?_, hrefused⟩
  -- The token is one and the same, whatever stands before it.
  obtain ⟨v, hworth, hlexes, hlist⟩ := hfits hle
  refine ⟨v, hworth, hlist, fun m => ?_, fun budget c ks hc hend => ?_⟩
  · obtain ⟨tree, hparse, hbare⟩ := t.exists_parse_minus hlexes m
    exact ⟨tree, hparse, hbare ▸ t.isNegation_negation hworth⟩
  · obtain ⟨tree, c', hrun, hbare, hrest⟩ := Parser.run_unary_negation hc hend
    exact ⟨tree, c', hrun, hbare ▸ t.isNegation_negation hworth, hrest⟩

/-- The greatest int, behind two zeros. -/
def greatest : IntegerText where
  radix := .decimal
  digits := "009223372036854775807".toList
  suffix := none
  digits_ne_nil := by decide
  isDigitOf := Number.isDigitOf_of_all (by decide)

/-- The number after the greatest int, in base sixteen. -/
def aboveGreatest : IntegerText where
  radix := .hexadecimal true
  digits := "8000000000000000".toList
  suffix := none
  digits_ne_nil := by decide
  isDigitOf := Number.isDigitOf_of_all (by decide)

/-- The limit itself is denoted, and what comes after it is refused. -/
theorem denotes_value_at_limit :
    greatest.text = "009223372036854775807" ∧ greatest.value = greatest.limit ∧
      (∃ tree, Expr.parse "-009223372036854775807" true = .ok tree ∧
        greatest.IsNegation tree.bare) ∧
      aboveGreatest.text = "0X8000000000000000" ∧
      ∃ shown, Token.list aboveGreatest.text = .error ⟨.invalidNumber shown, aboveGreatest.span⟩ := by
  have hvalue : greatest.value = greatest.limit := by decide +kernel
  have habove : aboveGreatest.limit < aboveGreatest.value := by decide +kernel
  obtain ⟨v, -, -, hminus, -⟩ := (denotes_value greatest).1 (Nat.le_of_eq hvalue)
  exact ⟨rfl, hvalue, hminus true, rfl, (denotes_value aboveGreatest).2 habove⟩

end IntegerText

end CelShell
