import CelShell.Proofs.Grammar.RoundTrip

/-!
# How deep printed text is nested

Whether the canonical text of a parsed expression is parsed again can be read off the expression:
the text takes as many levels as `Expr.levels` counts, and nothing but their number stops it. The
text that the expression came from does not bound them. The printer drops parentheses that grouping
does not need, and a chain that stood in them merges with the chain around it. What the outer chain
holds after the merge is then below the links of both.
-/

namespace CelShell

namespace Expr

open Grammar Scan

variable {source : String} {m : Bool} {t : Tree}

/-- A tree that is parsed is canonical, since its own text derives it again. -/
theorem canonical_of_parse (h : parse source m = .ok t) : Canonical m t.bare := by
  unfold parse at h
  cases htokens : Token.list source with
  | error e => rw [htokens] at h; cases h
  | ok tokens =>
    rw [htokens] at h
    obtain ⟨ks, hkinds, hlexes⟩ := lexes_of_listFrom htokens
    have heof : Kind.eof ∉ ks := fun hmem => hlexes.isReadable _ hmem
    exact canonical_of_derives (derives_of_ofTokens hkinds heof h) hlexes.isReadable

/-- The canonical text of an expression is parsed from tokens that take the levels of the
expression. -/
theorem exists_takes {e : Expr Unit} (h : Canonical m e) :
    ∃ tokens ks, parse e.text m = ofTokens tokens m ∧ tokens.map Token.kind = ks ++ [.eof] ∧
      Takes m (.expr Binding.conditional e) ks (.closed e.levels) := by
  obtain ⟨ks, htakes, hspells⟩ := h.printedText
  have hlexes : Lexes e.text.toList ks := by
    have hdone := hspells .finish (.done rfl)
    rwa [List.append_nil, List.append_nil] at hdone
  obtain ⟨tokens, hlist, hkinds⟩ := hlexes.exists_listFrom .start
  refine ⟨tokens, ks, ?_, hkinds, htakes⟩
  unfold parse
  rw [Token.list, hlist]

/-- The canonical text of a tree is that of its shape. -/
theorem exists_takes_text (h : Canonical m t.bare) :
    ∃ tokens ks, parse t.text m = ofTokens tokens m ∧ tokens.map Token.kind = ks ++ [.eof] ∧
      Takes m (.expr Binding.conditional t.bare) ks (.closed t.levels) := by
  have hbare := exists_takes h
  have htext : t.bare.text = t.text := text_remark _ t
  rwa [levels_bare, htext] at hbare

/-- The levels of a tree that was parsed from a text decide whether its canonical text is parsed
again. If they are not above the limit the tree comes out again, with other marks, and otherwise
nesting stops the parser. -/
theorem parse_text_of_levels (source : String) (m : Bool) (t : Tree)
    (h : parse source m = .ok t) :
    (t.levels ≤ maxDepth → ∃ t', parse t.text m = .ok t' ∧ t'.bare = t.bare) ∧
      (maxDepth < t.levels → ∃ err, parse t.text m = .error err ∧ err.IsNestingLimit) := by
  obtain ⟨tokens, ks, hparse, hkinds, htakes⟩ := exists_takes_text (canonical_of_parse h)
  rw [hparse]
  exact ofTokens_of_takes hkinds htakes

/-- A chain in parentheses with a call after them, whose argument is a name below negations. -/
def mergingSource (negations : Nat) : String := "(a.b).c(" ++ "".pushn '!' negations ++ "d)"

/-- The merged chain is parsed again as long as its argument leaves a level for each link. -/
theorem parse_text_of_levels_merging :
    ∃ t, parse (mergingSource 96) false = .ok t ∧ t.levels = maxDepth ∧
      ∃ t', parse t.text false = .ok t' ∧ t'.bare = t.bare := by
  have hlevels : (parse (mergingSource 96) false).toOption.map levels = some maxDepth := by
    decide +kernel
  cases h : parse (mergingSource 96) false with
  | error e => rw [h] at hlevels; cases hlevels
  | ok t =>
    rw [h] at hlevels
    have ht : t.levels = maxDepth := Option.some.inj hlevels
    exact ⟨t, rfl, ht, (parse_text_of_levels _ false t h).1 (Nat.le_of_eq ht)⟩

/-- With one negation more the text is within the limit as it is written, but not as it is
printed. -/
theorem exists_parse_text_isNestingLimit :
    ∃ t, parse (mergingSource 97) false = .ok t ∧
      ∃ err, parse t.text false = .error err ∧ err.IsNestingLimit := by
  have hlevels : (parse (mergingSource 97) false).toOption.map levels = some (maxDepth + 1) := by
    decide +kernel
  cases h : parse (mergingSource 97) false with
  | error e => rw [h] at hlevels; cases hlevels
  | ok t =>
    rw [h] at hlevels
    -- Printed, the expression takes one level more than there are.
    have ht : t.levels = maxDepth + 1 := Option.some.inj hlevels
    obtain ⟨tokens, ks, hparse, hkinds, htakes⟩ := exists_takes_text (canonical_of_parse h)
    refine ⟨t, rfl, ?_⟩
    rw [hparse]
    refine (ofTokens_of_takes hkinds htakes).2 ?_
    rw [Nesting.closed_levels, ht]
    exact Nat.lt_succ_self _

end Expr

end CelShell
