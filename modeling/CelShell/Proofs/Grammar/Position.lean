import CelShell.Proofs.Grammar.Budget
import CelShell.Proofs.Grammar.Building
import CelShell.Proofs.Grammar.Completeness

/-!
# How far a parser comes

A cursor over a list of tokens stands at a position of it, `Cursor.StandsAt`. Whatever a parser
builds, it only goes on from there and never past the last token, and an expression that is read
takes at least one token. Together with the levels that counting closes, that is what a user of a
parser between two steps can rely on (`ParserState.expr_ends`): reading an expression comes to an
end, with as many levels open as before, and the errors recorded grow by one if it fails and by none
if it does not.
-/

namespace CelShell

variable {tokens : List Token} {i : Nat} {c c₀ c' : Cursor} {ts : List Tree}

namespace Cursor

/-- A cursor has consumed as many of the tokens as its position says. -/
structure StandsAt (tokens : List Token) (i : Nat) (c : Cursor) : Prop where
  le : i ≤ tokens.length
  rest : c.rest = tokens.drop i
  previous : c.previous = ((tokens.take i).getLast?.map Token.span).getD .dummy

/-- The current token of a cursor that has one is the one at its position. -/
theorem StandsAt.split {t : Token} {rest : List Token} (h : StandsAt tokens i c)
    (hrest : c.rest = t :: rest) : tokens = tokens.take i ++ t :: rest := by
  rw [← hrest, h.rest, List.take_append_drop]

/-- The position after the current token. -/
theorem StandsAt.skip {t : Token} {rest : List Token} (h : StandsAt tokens i c)
    (hrest : c.rest = t :: rest) : StandsAt tokens (i + 1) c.skip := by
  have hskip : c.skip = { c with rest, previous := t.span } := by rw [Cursor.skip, hrest]
  have hlength : (tokens.take i).length = i := List.length_take_of_le h.le
  -- The tokens before the cursor, with the current one behind them.
  have htokens : tokens = (tokens.take i ++ [t]) ++ rest := by
    rw [List.append_assoc]
    exact h.split hrest
  have hat : (tokens.take i ++ [t]).length = i + 1 := by
    rw [List.length_append, hlength, List.length_singleton]
  rw [hskip]
  constructor
  · have htotal := congrArg List.length htokens
    rw [List.length_append, hat] at htotal
    omega
  · exact (congrArg (List.drop (i + 1)) htokens).trans (hat ▸ List.drop_left) |>.symm
  · have htake : tokens.take (i + 1) = tokens.take i ++ [t] :=
      (congrArg (List.take (i + 1)) htokens).trans (hat ▸ List.take_left)
    rw [htake, List.getLast?_concat]
    rfl

/-- A parser only goes on. -/
theorem Builds.standsAt (h : Builds c₀ ts c) (hc₀ : StandsAt tokens i c₀) :
    ∃ j, i ≤ j ∧ StandsAt tokens j c := by
  induction h with
  | start => exact ⟨i, Nat.le_refl i, hc₀⟩
  | token _ hrest ih =>
    obtain ⟨j, hj, hc⟩ := ih
    exact ⟨j + 1, Nat.le_succ_of_le hj, hc.skip hrest⟩
  | node _ _ ih =>
    obtain ⟨j, hj, hc⟩ := ih
    exact ⟨j, hj, hc.le, hc.rest, hc.previous⟩
  | unwrap _ ih | sublist _ _ ih => exact ih

end Cursor

namespace Parser

open Cursor Grammar

/-- An expression takes at least one token. -/
theorem expr_advances {budget : Nat} {t : Tree} (h : expr budget c = .ok t c') :
    c'.rest.length < c.rest.length := by
  obtain ⟨ks, hreads, hderives⟩ := expr_sound rfl h
  obtain ⟨k, ks', rfl, -⟩ := hderives.head
  have hlength := hreads.length_rest
  rw [List.length_cons] at hlength
  omega

/-- Tokens that end in an end mark do not end in a point, so a failure has an error of its own. -/
theorem expr_error {last : Token} {budget : Nat} {e : Option SyntaxError}
    (hlast : last.kind = .eof) (hc : StandsAt (tokens ++ [last]) i c)
    (h : expr budget c = .error e c') : ∃ err, e = some err := by
  cases e with
  | some err => exact ⟨err, rfl⟩
  | none =>
    -- Without an error of its own the parser has failed at a point with no token behind it.
    obtain ⟨ts, c₁, hbuilds, hkinds⟩ := ((expr_builds budget c).of_error h).2 rfl
    obtain ⟨j, -, hc₁⟩ := hbuilds.standsAt hc
    obtain ⟨span, rest, hrest⟩ := rest_of_kinds hkinds
    obtain rfl : rest = [] := by
      rw [kinds, hrest, List.map_cons, List.cons.injEq, List.map_eq_nil_iff] at hkinds
      exact hkinds.2
    have hdot : [last] = [⟨.symbol .dot, span⟩] :=
      (List.append_inj' (hc₁.split hrest) rfl).2
    rw [List.singleton_inj.1 hdot] at hlast
    cases hlast

end Parser

/-- Reading an expression comes to one end: the parser that counts its open levels ends as the one
with a budget does. It has then as many levels open as before and stands no further back, and
still among the tokens. With a tree it stands further on, and has recorded no error; without one it
has recorded one. -/
theorem ParserState.expr_ends {last : Token} {s : ParserState} (hlast : last.kind = .eof)
    (hs : s.cursor.StandsAt (tokens ++ [last]) i) :
    ∃ result s' j, (∀ o, Counting.EndsIn s o ↔ o = (result, s')) ∧ s.expr = (result, s') ∧
      s'.depth = s.depth ∧ i ≤ j ∧ j ≤ (tokens ++ [last]).length ∧
      s'.cursor.StandsAt (tokens ++ [last]) j ∧
      match result with
      | some _ => i < j ∧ s'.errors = s.errors
      | none => ∃ e, s'.errors = s.errors ++ [e] := by
  have hbuilds := Parser.expr_builds (maxDepth - s.depth) s.cursor
  have hends : ∀ o, Counting.EndsIn s o ↔ o = s.expr := fun _ => Counting.endsIn_iff
  cases hrun : Parser.expr (maxDepth - s.depth) s.cursor with
  | ok t c' =>
    obtain ⟨j, hj, hc'⟩ := (hbuilds.of_ok hrun).standsAt hs
    have hexpr : s.expr = (some t, { s with cursor := c' }) := by rw [expr, hrun]
    -- A tree holds a token at least.
    have hlt : i < j := by
      have hadvances := Parser.expr_advances hrun
      rw [hc'.rest, hs.rest, List.length_drop, List.length_drop] at hadvances
      omega
    exact ⟨_, _, j, hexpr ▸ hends, hexpr, rfl, hj, hc'.le, hc', hlt, rfl⟩
  | error e c' =>
    obtain ⟨⟨ts, hts⟩, -⟩ := hbuilds.of_error hrun
    obtain ⟨j, hj, hc'⟩ := hts.standsAt hs
    -- The tokens end in an end mark, so the failure has an error to record.
    obtain ⟨err, rfl⟩ := Parser.expr_error hlast hs hrun
    have hexpr : s.expr = (none, { s with cursor := c' }.report err) := by rw [expr, hrun]
    exact ⟨_, _, j, hexpr ▸ hends, hexpr, rfl, hj, hc'.le, hc', err, rfl⟩

/-- A field without a name, in a bracket that stays open, with seven levels open and an error
recorded. -/
theorem ParserState.expr_ends_behind_point :
    ∃ s' e, Counting.EndsIn
        ⟨⟨[⟨.symbol .leftParen, .dummy⟩, ⟨.ident "a", .dummy⟩, ⟨.symbol .dot, .dummy⟩,
          ⟨.eof, .dummy⟩], .dummy, 5, true⟩, 7, [.unexpected .eof .dummy]⟩ (none, s') ∧
      s'.depth = 7 ∧ s'.errors = [.unexpected .eof .dummy, e] := by
  have hs : Cursor.StandsAt
      ([⟨.symbol .leftParen, .dummy⟩, ⟨.ident "a", .dummy⟩, ⟨.symbol .dot, .dummy⟩] ++
        [⟨.eof, .dummy⟩]) 0
      (ParserState.mk ⟨[⟨.symbol .leftParen, .dummy⟩, ⟨.ident "a", .dummy⟩,
        ⟨.symbol .dot, .dummy⟩, ⟨.eof, .dummy⟩], .dummy, 5, true⟩ 7
          [.unexpected .eof .dummy]).cursor := ⟨by decide, rfl, rfl⟩
  obtain ⟨result, s', j, hends, hexpr, hdepth, -, -, -, h⟩ := ParserState.expr_ends rfl hs
  obtain rfl : none = result := congrArg Prod.fst hexpr
  obtain ⟨e, herrors⟩ := h
  exact ⟨s', e, (hends _).2 rfl, hdepth, herrors⟩

end CelShell
