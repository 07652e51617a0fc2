import CelShell.Proofs.Grammar.Completeness

/-!
# The parser recognises the grammar

Soundness and completeness put together for whole texts of tokens. The tokens that a tree is derived
from hold no end mark, so a list of tokens whose only end mark is its last one is read up to that
mark or not at all: a tree comes out exactly if the tokens before the mark derive it, or nesting
stops the parser first.
-/

namespace CelShell

namespace Grammar

variable {m : Bool} {ks : List Kind}

/-- The end mark stands in no derivation. -/
theorem Derives.eof_not_mem {p : Phrase} (h : Derives m p ks) : Kind.eof ∉ ks := by
  induction h with
  | binary hi _ _ ih₁ ih₂ =>
    rw [List.mem_append, List.mem_cons, not_or, not_or]
    refine ⟨ih₁, ?_, ih₂⟩
    rintro rfl
    cases hi
  | _ => simp_all

end Grammar

namespace Expr

open Grammar CelShell.Parser

variable {m : Bool} {tokens : List Token} {ks : List Kind}

/-- Kinds that end in their only end mark are split before it in one way. -/
theorem eq_of_append_eof {ks' rest : List Kind} (h : ks ++ [.eof] = ks' ++ .eof :: rest)
    (hks : Kind.eof ∉ ks) : ks = ks' ∧ rest = [] := by
  rcases List.append_eq_append_iff.1 h with ⟨l, rfl, hl⟩ | ⟨l, rfl, hl⟩
  · cases l with
    | nil => simpa using hl
    | cons k l => simp at hl
  · cases l with
    | nil => simpa using hl.symm
    | cons k l =>
      rw [List.cons_append, List.cons.injEq] at hl
      exact absurd (by simp [hl.1]) hks

/-- A tree comes out of a run that ends where nothing but the end is left. -/
theorem run_of_ofTokens {t : Tree} (h : ofTokens tokens m = .ok t) :
    ∃ c', Parser.expr maxDepth ⟨tokens, .dummy, 1, m⟩ = .ok t c' ∧ c'.atEnd = true := by
  unfold ofTokens at h
  cases hr : Parser.expr maxDepth ⟨tokens, .dummy, 1, m⟩ with
  | error e c' => rw [hr] at h; cases e <;> cases h
  | ok t' c' =>
    rw [hr] at h
    by_cases hend : c'.atEnd
    · simp only [hend, if_true, Except.ok.injEq] at h
      exact ⟨c', by rw [h], hend⟩
    · simp [hend] at h

/-- A tree comes out of tokens only if the tokens before their end mark derive it. -/
theorem derives_of_ofTokens {t : Tree} (htokens : tokens.map Token.kind = ks ++ [.eof])
    (hks : Kind.eof ∉ ks) (h : ofTokens tokens m = .ok t) :
    Derives m (.expr Binding.conditional t.bare) ks := by
  obtain ⟨c', hr, hend⟩ := run_of_ofTokens h
  obtain ⟨ks', hreads, hd⟩ := expr_sound rfl hr
  have hkinds : ks ++ [.eof] = ks' ++ c'.kinds := htokens.symm.trans hreads.kinds
  -- A cursor at its end has the end mark before it, or no token at all, which cannot be: then the
  -- tokens consumed, which are derived, would hold the mark.
  cases hk : c'.kinds with
  | nil =>
    rw [hk, List.append_nil] at hkinds
    exact absurd (hkinds ▸ by simp) hd.eof_not_mem
  | cons k rest =>
    have hkind : k = .eof := Cursor.kind_of_kinds hk ▸ Cursor.atEnd_iff.1 hend
    rw [hk, hkind] at hkinds
    exact (eq_of_append_eof hkinds hks).1 ▸ hd

/-- Tokens that derive a tree give it if the levels that they take are not above the limit, and
otherwise nesting stops the parser. -/
theorem ofTokens_of_takes {e : Expr Unit} {n : Nesting}
    (htokens : tokens.map Token.kind = ks ++ [.eof])
    (h : Takes m (.expr Binding.conditional e) ks n) :
    (n.levels ≤ maxDepth → ∃ t, ofTokens tokens m = .ok t ∧ t.bare = e) ∧
      (maxDepth < n.levels → ∃ err, ofTokens tokens m = .error err ∧ err.IsNestingLimit) := by
  have hstart : At m ⟨tokens, .dummy, 1, m⟩ (ks ++ [.eof]) := ⟨htokens, rfl⟩
  have hdecides : Decides (n.levels ≤ maxDepth) (Parser.expr maxDepth ⟨tokens, .dummy, 1, m⟩)
      (Read m e [.eof]) := expr_decides h hstart endsExpr_eof
  unfold ofTokens
  cases hr : Parser.expr maxDepth ⟨tokens, .dummy, 1, m⟩ with
  | error e c' =>
    rw [hr] at hdecides
    obtain ⟨hdeep, err, rfl, herr⟩ := hdecides
    exact ⟨fun hlevels => absurd hlevels hdeep, fun _ => ⟨err, rfl, herr⟩⟩
  | ok t c' =>
    rw [hr] at hdecides
    obtain ⟨hlevels, hbare, hrest⟩ := hdecides
    -- The tree takes all tokens up to the end mark.
    have hend : c'.atEnd = true := Cursor.atEnd_iff.2 (Cursor.kind_of_kinds hrest.kinds)
    exact ⟨fun _ => ⟨t, by simp only [hend, if_true], hbare⟩, fun hdeep =>
      absurd hlevels (Nat.not_le.2 hdeep)⟩

/-- Tokens that derive a tree give it, or nesting stops the parser. -/
theorem ofTokens_of_derives {e : Expr Unit} (htokens : tokens.map Token.kind = ks ++ [.eof])
    (h : Derives m (.expr Binding.conditional e) ks) :
    (∃ t, ofTokens tokens m = .ok t ∧ t.bare = e) ∨
      ∃ err, ofTokens tokens m = .error err ∧ err.IsNestingLimit := by
  obtain ⟨n, htakes⟩ := h.exists_takes
  obtain ⟨hok, herror⟩ := ofTokens_of_takes htokens htakes
  exact (Nat.lt_or_ge maxDepth n.levels).symm.imp hok herror

/-- The parser accepts the grammar. With macros off, a list of tokens that ends in its only end mark
gives a tree only if the tokens before the mark derive it. If they derive a tree, then reading them
takes some number of levels of nesting, and that number decides: up to the limit that tree comes
out, and above it the error that the expression is nested too deep. -/
theorem ofTokens_recognises (tokens : List Token) (last : Token) (hlast : last.kind = .eof)
    (honly : ∀ t ∈ tokens, t.kind ≠ .eof) :
    (∀ t, ofTokens (tokens ++ [last]) false = .ok t →
      Derives false (.expr Binding.conditional t.bare) (tokens.map Token.kind)) ∧
    ∀ e, Derives false (.expr Binding.conditional e) (tokens.map Token.kind) →
      (∃ n, Takes false (.expr Binding.conditional e) (tokens.map Token.kind) n) ∧
      ∀ n, Takes false (.expr Binding.conditional e) (tokens.map Token.kind) n →
        (n.levels ≤ maxDepth → ∃ t, ofTokens (tokens ++ [last]) false = .ok t ∧ t.bare = e) ∧
        (maxDepth < n.levels →
          ∃ err, ofTokens (tokens ++ [last]) false = .error err ∧ err.IsNestingLimit) := by
  have hkinds : (tokens ++ [last]).map Token.kind = tokens.map Token.kind ++ [.eof] := by
    rw [List.map_append, List.map_singleton, hlast]
  have heof : Kind.eof ∉ tokens.map Token.kind := fun h => by
    obtain ⟨t, ht, hk⟩ := List.mem_map.1 h
    exact honly t ht hk
  refine ⟨fun t h => derives_of_ofTokens hkinds heof h, fun e h => ⟨h.exists_takes, fun n hn => ?_⟩⟩
  exact ofTokens_of_takes hkinds hn

/-- Two subtractions in a row are grouped to the left. They take three levels, one for the whole
expression and one for each link, so the parser is not stopped. -/
theorem ofTokens_recognises_subtractions :
    let tokens : List Token := [⟨.ident "a", .dummy⟩, ⟨.symbol .minus, .dummy⟩,
      ⟨.ident "b", .dummy⟩, ⟨.symbol .minus, .dummy⟩, ⟨.ident "c", .dummy⟩]
    let e : Expr Unit :=
      .call () "_-_" [.call () "_-_" [.ident () "a", .ident () "b"], .ident () "c"]
    (∀ t ∈ tokens, t.kind ≠ .eof) ∧
      Derives false (.expr Binding.conditional e) (tokens.map Token.kind) ∧
      ∃ t, ofTokens (tokens ++ [⟨.eof, .dummy⟩]) false = .ok t ∧ t.bare = e := by
  intro tokens e
  have honly : ∀ t ∈ tokens, t.kind ≠ .eof := by decide
  -- The left operand of a link may be a link of the same level, the right one may not.
  have hfirst : Takes false (.expr Binding.additive _) _ _ :=
    .binary .subtract (takes_name "a" (by decide) (by decide))
      (takes_name "b" (by decide) (by decide))
  have hboth := Takes.binary .subtract hfirst (takes_name "c" (by decide) (by decide))
  have hle : Binding.or ≤ Binding.additive := by decide
  have htakes := Takes.tighter (Nat.le_refl Binding.conditional)
    (hboth.loosen hle (Nat.le_refl _) (by decide))
  obtain ⟨hsound, hcomplete⟩ := ofTokens_recognises tokens ⟨.eof, .dummy⟩ rfl honly
  obtain ⟨t, ht, hbare⟩ := ((hcomplete e htakes.derives).2 _ htakes).1 (by decide)
  exact ⟨honly, hbare ▸ hsound t ht, t, ht, hbare⟩

end Expr

end CelShell
