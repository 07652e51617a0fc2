import CelShell.Proofs.Grammar.Soundness

/-!
# What it takes to read an expression

Brackets, unary operators and the links of chains take levels of nesting from the parser. `Takes` is
the grammar with the count of them: besides the tokens of a phrase it says how many levels a parser
needs to read them, and how many links the chain has that an expression ends in. The parser gives
those links back where the chain ends, and until then whatever it reads lies below all of them. So
the same tree can take more levels or fewer, depending on where parentheses end a chain.
-/

namespace CelShell

namespace Grammar

/-- What it takes to read tokens. -/
structure Nesting where
  /-- The links of the chain that an expression ends in. -/
  links : Nat
  /-- The most levels that are open at once. -/
  levels : Nat
  /-- The links are levels themselves. -/
  links_le : links ≤ levels

namespace Nesting

/-- What is no chain. -/
def closed (levels : Nat) : Nesting := ⟨0, levels, Nat.zero_le levels⟩

/-- One more link of a chain, with a part that is read below all its links. -/
def link (n : Nesting) (part : Nat) : Nesting :=
  ⟨n.links + 1, max n.levels (n.links + 1 + part),
    Nat.le_trans (Nat.le_add_right _ _) (Nat.le_max_right _ _)⟩

/-- What is of the next level, read at a level: a whole expression is a level of its own, and a
chain of members ends where it is an operand. -/
def loosen (level : Nat) (n : Nesting) : Nesting :=
  if level = Binding.conditional then closed (n.levels + 1)
  else if level = Binding.unary then closed n.levels
  else n

/-- What is of a level, read at the looser level of an operand: a chain of members ends there. -/
def asOperand (level demanded : Nat) (n : Nesting) : Nesting :=
  if demanded ≤ Binding.unary ∧ Binding.member ≤ level then closed n.levels else n

/-- What is no chain has no links. -/
@[simp] theorem closed_links (levels : Nat) : (closed levels).links = 0 := rfl

/-- What is no chain has the levels given to it. -/
@[simp] theorem closed_levels (levels : Nat) : (closed levels).levels = levels := rfl

/-- A link is counted. -/
@[simp] theorem link_links (n : Nesting) (part : Nat) : (n.link part).links = n.links + 1 := rfl

/-- A link is as deep as the part that is read below it. -/
@[simp] theorem link_levels (n : Nesting) (part : Nat) :
    (n.link part).levels = max n.levels (n.links + 1 + part) := rfl

/-- An operand has the levels of what it is made of. -/
@[simp] theorem asOperand_levels (level demanded : Nat) (n : Nesting) :
    (n.asOperand level demanded).levels = n.levels := by
  unfold asOperand
  split <;> rfl

/-- What is no chain stays as it is where it is an operand. -/
@[simp] theorem asOperand_closed (level demanded levels : Nat) :
    (closed levels).asOperand level demanded = closed levels := ite_self _

/-- What is no chain is told by its levels. -/
theorem eq_closed {n : Nesting} (h : n.links = 0) : n = closed n.levels := by
  obtain ⟨links, levels, hle⟩ := n
  subst h
  rfl

end Nesting

/-- The grammar with what it takes to read the tokens. -/
inductive Takes (macrosOn : Bool) : Phrase → List Kind → Nesting → Prop where
  | tighter : Binding.conditional ≤ level → Takes macrosOn (.expr (level + 1) e) ks n →
      Takes macrosOn (.expr level e) ks (n.loosen level)
  /-- Both branches and the condition are read below the level of the conditional. -/
  | conditional : Takes macrosOn (.expr Binding.or c) ks₁ n₁ →
      Takes macrosOn (.expr Binding.or t) ks₂ n₂ →
      Takes macrosOn (.expr Binding.conditional e) ks₃ n₃ →
      Takes macrosOn (.expr Binding.conditional (.call () Operator.conditional [c, t, e]))
        (ks₁ ++ .symbol .question :: (ks₂ ++ .symbol .colon :: ks₃))
        (.closed (max n₁.levels (max n₂.levels n₃.levels) + 1))
  | binary : Infix level k op → Takes macrosOn (.expr level l) ks₁ n₁ →
      Takes macrosOn (.expr (level + 1) r) ks₂ n₂ →
      Takes macrosOn (.expr level (.call () op.function [l, r])) (ks₁ ++ k :: ks₂)
        (n₁.link n₂.levels)
  | not : Takes macrosOn (.expr Binding.unary e) ks n →
      Takes macrosOn (.expr Binding.unary (.call () "!_" [e])) (.symbol .not :: ks)
        (.closed (n.levels + 1))
  | negate : Takes macrosOn (.expr Binding.unary e) ks n →
      Takes macrosOn (.expr Binding.unary (negation e)) (.symbol .minus :: ks)
        (.closed (n.levels + 1))
  | select : Takes macrosOn (.expr Binding.member e) ks n →
      Takes macrosOn (.expr Binding.member (.select () e name false))
        (ks ++ [.symbol .dot, .ident name]) (n.link 0)
  | index : Takes macrosOn (.expr Binding.member e) ks₁ n₁ →
      Takes macrosOn (.expr Binding.conditional i) ks₂ n₂ →
      Takes macrosOn (.expr Binding.member (.call () Operator.index [e, i]))
        (ks₁ ++ .symbol .leftBracket :: (ks₂ ++ [.symbol .rightBracket])) (n₁.link n₂.levels)
  | invoke : Takes macrosOn (.expr Binding.member target) ks₁ n₁ →
      Takes macrosOn (.items args) ks₂ n₂ → receiverCall? macrosOn target name args = some e →
      Takes macrosOn (.expr Binding.member e)
        (ks₁ ++ .symbol .dot :: .ident name :: .symbol .leftParen
          :: (ks₂ ++ [.symbol .rightParen])) (n₁.link n₂.levels)
  | literal : Takes macrosOn (.expr primary (.literal () value)) [.literal value] (.closed 0)
  | ident : Takes macrosOn (.expr primary (.ident () name)) [.ident name] (.closed 0)
  | call : Takes macrosOn (.items args) ks n → globalCall? macrosOn name args = some e →
      Takes macrosOn (.expr primary e)
        (.ident name :: .symbol .leftParen :: (ks ++ [.symbol .rightParen])) (.closed n.levels)
  /-- Parentheses end the chain inside of them. -/
  | parens : Takes macrosOn (.expr Binding.conditional e) ks n →
      Takes macrosOn (.expr primary e) (.symbol .leftParen :: (ks ++ [.symbol .rightParen]))
        (.closed n.levels)
  | list : Takes macrosOn (.items es) ks n →
      Takes macrosOn (.expr primary (.list () es))
        (.symbol .leftBracket :: (ks ++ [.symbol .rightBracket])) (.closed n.levels)
  | map : Takes macrosOn (.entries es) ks n →
      Takes macrosOn (.expr primary (.map () es))
        (.symbol .leftBrace :: (ks ++ [.symbol .rightBrace])) (.closed n.levels)
  | noItems : Takes macrosOn (.items []) [] (.closed 0)
  | lastItem : Takes macrosOn (.expr Binding.conditional e) ks n →
      Takes macrosOn (.items [e]) ks (.closed n.levels)
  | moreItems : Takes macrosOn (.expr Binding.conditional e) ks₁ n₁ →
      Takes macrosOn (.items es) ks₂ n₂ →
      Takes macrosOn (.items (e :: es)) (ks₁ ++ .symbol .comma :: ks₂)
        (.closed (max n₁.levels n₂.levels))
  | noEntries : Takes macrosOn (.entries []) [] (.closed 0)
  | lastEntry : Takes macrosOn (.expr Binding.conditional k) ks₁ n₁ →
      Takes macrosOn (.expr Binding.conditional v) ks₂ n₂ →
      Takes macrosOn (.entries [(k, v)]) (ks₁ ++ .symbol .colon :: ks₂)
        (.closed (max n₁.levels n₂.levels))
  | moreEntries : Takes macrosOn (.expr Binding.conditional k) ks₁ n₁ →
      Takes macrosOn (.expr Binding.conditional v) ks₂ n₂ → Takes macrosOn (.entries es) ks₃ n₃ →
      Takes macrosOn (.entries ((k, v) :: es))
        (ks₁ ++ .symbol .colon :: (ks₂ ++ .symbol .comma :: ks₃))
        (.closed (max (max n₁.levels n₂.levels) n₃.levels))

variable {m : Bool} {p : Phrase} {ks : List Kind} {n : Nesting}

/-- What takes levels is derived. -/
theorem Takes.derives (h : Takes m p ks n) : Derives m p ks := by
  induction h with
  | tighter hle _ ih => exact .tighter hle ih
  | conditional _ _ _ ihc iht ihe => exact .conditional ihc iht ihe
  | binary hi _ _ ihl ihr => exact .binary hi ihl ihr
  | not _ ih => exact .not ih
  | negate _ ih => exact .negate ih
  | select _ ih => exact .select ih
  | index _ _ ihe ihi => exact .index ihe ihi
  | invoke _ _ he iht iha => exact .invoke iht iha he
  | literal => exact .literal
  | ident => exact .ident
  | call _ he ih => exact .call ih he
  | parens _ ih => exact .parens ih
  | list _ ih => exact .list ih
  | map _ ih => exact .map ih
  | noItems => exact .noItems
  | lastItem _ ih => exact .lastItem ih
  | moreItems _ _ ih ihs => exact .moreItems ih ihs
  | noEntries => exact .noEntries
  | lastEntry _ _ ihk ihv => exact .lastEntry ihk ihv
  | moreEntries _ _ _ ihk ihv ihs => exact .moreEntries ihk ihv ihs

/-- What is derived takes some number of levels. -/
theorem Derives.exists_takes (h : Derives m p ks) : ∃ n, Takes m p ks n := by
  induction h with
  | tighter hle _ ih =>
    obtain ⟨n, h⟩ := ih
    exact ⟨_, .tighter hle h⟩
  | conditional _ _ _ ihc iht ihe =>
    obtain ⟨n₁, hc⟩ := ihc
    obtain ⟨n₂, ht⟩ := iht
    obtain ⟨n₃, he⟩ := ihe
    exact ⟨_, .conditional hc ht he⟩
  | binary hi _ _ ihl ihr =>
    obtain ⟨n₁, hl⟩ := ihl
    obtain ⟨n₂, hr⟩ := ihr
    exact ⟨_, .binary hi hl hr⟩
  | not _ ih =>
    obtain ⟨n, h⟩ := ih
    exact ⟨_, .not h⟩
  | negate _ ih =>
    obtain ⟨n, h⟩ := ih
    exact ⟨_, .negate h⟩
  | select _ ih =>
    obtain ⟨n, h⟩ := ih
    exact ⟨_, .select h⟩
  | index _ _ ihe ihi =>
    obtain ⟨n₁, he⟩ := ihe
    obtain ⟨n₂, hi⟩ := ihi
    exact ⟨_, .index he hi⟩
  | invoke _ _ he iht iha =>
    obtain ⟨n₁, ht⟩ := iht
    obtain ⟨n₂, ha⟩ := iha
    exact ⟨_, .invoke ht ha he⟩
  | literal => exact ⟨_, .literal⟩
  | ident => exact ⟨_, .ident⟩
  | call _ he ih =>
    obtain ⟨n, h⟩ := ih
    exact ⟨_, .call h he⟩
  | parens _ ih =>
    obtain ⟨n, h⟩ := ih
    exact ⟨_, .parens h⟩
  | list _ ih =>
    obtain ⟨n, h⟩ := ih
    exact ⟨_, .list h⟩
  | map _ ih =>
    obtain ⟨n, h⟩ := ih
    exact ⟨_, .map h⟩
  | noItems => exact ⟨_, .noItems⟩
  | lastItem _ ih =>
    obtain ⟨n, h⟩ := ih
    exact ⟨_, .lastItem h⟩
  | moreItems _ _ ih ihs =>
    obtain ⟨n₁, h⟩ := ih
    obtain ⟨n₂, hs⟩ := ihs
    exact ⟨_, .moreItems h hs⟩
  | noEntries => exact ⟨_, .noEntries⟩
  | lastEntry _ _ ihk ihv =>
    obtain ⟨n₁, hk⟩ := ihk
    obtain ⟨n₂, hv⟩ := ihv
    exact ⟨_, .lastEntry hk hv⟩
  | moreEntries _ _ _ ihk ihv ihs =>
    obtain ⟨n₁, hk⟩ := ihk
    obtain ⟨n₂, hv⟩ := ihv
    obtain ⟨n₃, hs⟩ := ihs
    exact ⟨_, .moreEntries hk hv hs⟩

/-- From one level of operators to the next nothing changes, except that a chain of members ends. -/
theorem Nesting.asOperand_loosen {level demanded : Nat} (n : Nesting)
    (hor : Binding.or ≤ demanded) (hle : demanded ≤ level) (hlt : level < Binding.member) :
    (n.loosen level).asOperand level demanded = n.asOperand (level + 1) demanded := by
  have hne : level ≠ Binding.conditional := by
    rintro rfl
    exact absurd (Nat.le_trans hor hle) (by decide)
  have hnot : ¬(demanded ≤ Binding.unary ∧ Binding.member ≤ level) := fun h =>
    absurd h.2 (Nat.not_le.mpr hlt)
  rw [asOperand, if_neg hnot, asOperand, loosen, if_neg hne]
  -- A chain of members ends between the level of the members and that of the signs.
  by_cases hunary : level = Binding.unary
  · subst hunary
    rw [if_pos rfl, if_pos ⟨hle, Nat.le_refl _⟩]
  · have hnot' : ¬(demanded ≤ Binding.unary ∧ Binding.member ≤ level + 1) := fun h =>
      hunary (Nat.le_antisymm (Nat.le_of_lt_succ hlt) (Nat.le_of_succ_le_succ h.2))
    rw [if_neg hunary, if_neg hnot']

/-- An expression of a level is one of every looser level of operators. -/
theorem Takes.loosen {level demanded : Nat} {e : Expr Unit} (h : Takes m (.expr level e) ks n)
    (hle : demanded ≤ level) (hor : Binding.or ≤ demanded) (hmember : level ≤ Binding.member) :
    Takes m (.expr demanded e) ks (n.asOperand level demanded) := by
  induction hle generalizing n with
  | refl =>
    have hnot : ¬(demanded ≤ Binding.unary ∧ Binding.member ≤ demanded) := fun h =>
      absurd (Nat.le_trans h.2 h.1) (by decide)
    rw [Nesting.asOperand, if_neg hnot]
    exact h
  -- The levels are passed one by one, from the tighter to the looser.
  | @step level hle ih =>
    rw [← Nesting.asOperand_loosen n hor hle hmember]
    have hpos : Binding.conditional ≤ level :=
      Nat.le_trans (by decide) (Nat.le_trans hor hle)
    exact ih (.tighter hpos h) (Nat.le_of_succ_le hmember)

/-- A name is an operand of any operator. -/
theorem takes_name {level : Nat} (name : String) (hor : Binding.or ≤ level)
    (hmember : level ≤ Binding.member) :
    Takes m (.expr level (.ident () name)) [.ident name] (.closed 0) := by
  have h : Takes m (.expr Binding.member (.ident () name)) [.ident name] (.closed 0) :=
    .tighter (by decide) .ident
  have hlevel := h.loosen hmember hor (Nat.le_refl _)
  rwa [Nesting.asOperand_closed] at hlevel

/-- A whole expression is no chain. -/
theorem Takes.links_eq_zero {e : Expr Unit} (h : Takes m (.expr Binding.conditional e) ks n) :
    n.links = 0 := by
  generalize hp : Phrase.expr Binding.conditional e = p at h
  cases h with
  | tighter =>
    injection hp with hlevel
    rw [← hlevel]
    rfl
  | conditional => rfl
  | binary hi =>
    injection hp with hlevel
    exact absurd (hlevel ▸ hi.or_le) (by decide)
  | _ => cases hp

end Grammar

end CelShell
