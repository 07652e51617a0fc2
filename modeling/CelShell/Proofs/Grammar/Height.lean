import CelShell.Proofs.Grammar.Recognition
import Mathlib.Tactic.Ring

/-!
# How high a parsed tree is

The nesting limit bounds the height of a tree, but not by itself. The links of a chain are counted
from where the chain starts, whatever the levels were inside of its first operand, and each of them
is one more node around that operand. So with every level that brackets open, a chain of members and
a chain of operators can put as many nodes around what is in the brackets as there are levels left.
`Takes.heightWithin` is the bound for what takes a number of levels, by induction on the derivation:
the height of a whole expression of `l` levels is less than `l * (l + 1)`. The bound is attained.
-/

namespace CelShell

namespace Expr

variable {α β : Type}

mutual

/-- The height of a tree: that of a node is one more than that of its highest child. -/
def height : Expr α → Nat
  | ident _ _ | literal _ _ => 1
  | select _ operand _ _ => operand.height + 1
  | call _ _ args => heightOfList args + 1
  | invoke _ target _ args => max target.height (heightOfList args) + 1
  | list _ elements => heightOfList elements + 1
  | map _ entries => heightOfEntries entries + 1
  | comprehension _ _ _ range body => max range.height body.height + 1

/-- The height of the highest tree of a list. -/
def heightOfList : List (Expr α) → Nat
  | [] => 0
  | e :: rest => max e.height (heightOfList rest)

/-- The height of the highest tree of the entries of a map. -/
def heightOfEntries : List (Expr α × Expr α) → Nat
  | [] => 0
  | (k, v) :: rest => max (max k.height v.height) (heightOfEntries rest)

end

/-- The trees of a list are bounded one by one. -/
theorem heightOfList_lt {es : List (Expr α)} {bound : Nat} (hpos : 0 < bound) :
    heightOfList es < bound ↔ ∀ e ∈ es, e.height < bound := by
  induction es with
  | nil => simp [heightOfList, hpos]
  | cons e rest ih => rw [heightOfList, Nat.max_lt, ih, List.forall_mem_cons]

/-- The keys and values of a map are bounded one by one. -/
theorem heightOfEntries_lt {es : List (Expr α × Expr α)} {bound : Nat} (hpos : 0 < bound) :
    heightOfEntries es < bound ↔ ∀ e ∈ es, e.1.height < bound ∧ e.2.height < bound := by
  induction es with
  | nil => simp [heightOfEntries, hpos]
  | cons e rest ih => rw [heightOfEntries, Nat.max_lt, Nat.max_lt, ih, List.forall_mem_cons]

mutual

/-- The height does not look at marks. -/
theorem height_remark (f : α → β) : (e : Expr α) → (e.remark f).height = e.height
  | ident _ _ | literal _ _ => by rw [remark, height, height]
  | select _ operand _ _ => by rw [remark, height, height, height_remark f operand]
  | call _ _ args => by rw [remark, height, height, heightOfList_remarkList f args]
  | invoke _ target _ args => by
    rw [remark, height, height, height_remark f target, heightOfList_remarkList f args]
  | list _ elements => by rw [remark, height, height, heightOfList_remarkList f elements]
  | map _ entries => by rw [remark, height, height, heightOfEntries_remarkEntries f entries]
  | comprehension _ _ _ range body => by
    rw [remark, height, height, height_remark f range, height_remark f body]

/-- The height of expressions does not depend on the marks. -/
theorem heightOfList_remarkList (f : α → β) :
    (es : List (Expr α)) → heightOfList (remarkList f es) = heightOfList es
  | [] => rfl
  | e :: rest => by
    rw [remarkList, heightOfList, heightOfList, height_remark f e, heightOfList_remarkList f rest]

/-- The height of entries does not depend on the marks. -/
theorem heightOfEntries_remarkEntries (f : α → β) :
    (es : List (Expr α × Expr α)) → heightOfEntries (remarkEntries f es) = heightOfEntries es
  | [] => rfl
  | (k, v) :: rest => by
    rw [remarkEntries, heightOfEntries, heightOfEntries, height_remark f k, height_remark f v,
      heightOfEntries_remarkEntries f rest]

end

/-- A tree is as high as its shape. -/
theorem height_bare (e : Expr α) : e.bare.height = e.height := height_remark _ e

end Expr

namespace Grammar

open CelShell.Expr

variable {m : Bool} {p : Phrase} {e : Expr Unit} {ks : List Kind} {n : Nesting} {a b : Nat}

/-! ## The bound for each level of the grammar -/

/-- How high what stands alone can be: a leaf, or a node around whole expressions. -/
def heightAlone (levels : Nat) : Nat := max 1 (levels * (levels + 1))

/-- What stands alone has at least the height of a leaf. -/
theorem heightAlone_pos (levels : Nat) : 0 < heightAlone levels := Nat.le_max_left _ _

/-- More levels leave more room for what stands alone. -/
theorem heightAlone_mono (h : a ≤ b) : heightAlone a ≤ heightAlone b :=
  max_le_max_left 1 (Nat.mul_le_mul h (Nat.succ_le_succ h))

/-- A level more leaves room for two chains around what stands alone. -/
theorem heightAlone_add_lt (h : a < b) : heightAlone a + 2 * a < b * (b + 1) := by
  have hmul : (a + 1) * (a + 2) ≤ b * (b + 1) := Nat.mul_le_mul h (Nat.succ_le_succ h)
  have hexpand : (a + 1) * (a + 2) = a * (a + 1) + 2 * a + 2 := by ring
  unfold heightAlone
  rcases Nat.eq_zero_or_pos a with rfl | hpos
  · omega
  · have hone : 1 ≤ a * (a + 1) := Nat.mul_pos hpos (Nat.succ_pos a)
    omega

/-- Above the lowest level it leaves room for one more node. -/
theorem heightAlone_add_succ_lt (hpos : 0 < a) :
    heightAlone a + 2 * a + 1 < (a + 1) * (a + 1 + 1) := by
  have hexpand : (a + 1) * (a + 1 + 1) = a * (a + 1) + 2 * a + 2 := by ring
  have hone : 1 ≤ a * (a + 1) := Nat.mul_pos hpos (Nat.succ_pos a)
  unfold heightAlone
  omega

/-- A whole expression fits the levels that it takes. -/
def FitsWhole (e : Expr Unit) (levels : Nat) : Prop := e.height < levels * (levels + 1)

/-- A whole expression that fits some levels fits more of them. -/
theorem FitsWhole.mono (h : FitsWhole e a) (hle : a ≤ b) : FitsWhole e b :=
  Nat.lt_of_lt_of_le h (Nat.mul_le_mul hle (Nat.succ_le_succ hle))

/-- A whole expression takes a level at least. -/
theorem FitsWhole.pos (h : FitsWhole e a) : 0 < a := by
  refine Nat.pos_of_ne_zero fun hzero => ?_
  rw [FitsWhole, hzero, Nat.zero_mul] at h
  exact Nat.not_lt_zero _ h

/-- There is room for one more node around a whole expression to stand alone. -/
theorem FitsWhole.lt_heightAlone (h : FitsWhole e a) : e.height < heightAlone a :=
  Nat.lt_of_lt_of_le h (Nat.le_max_right _ _)

/-- What takes levels is no higher than they allow. Each link of a chain is a node around what comes
before it, and an operand of an operator may be a whole chain of members. -/
def HeightWithin : Phrase → Nesting → Prop
  | .expr level e, n =>
    if level = Binding.conditional then FitsWhole e n.levels
    else if level ≤ Binding.unary then e.height ≤ heightAlone n.levels + n.levels + n.links
    else e.height ≤ heightAlone n.levels + n.links
  | .items es, n => ∀ e ∈ es, FitsWhole e n.levels
  | .entries es, n => ∀ e ∈ es, FitsWhole e.1 n.levels ∧ FitsWhole e.2 n.levels

/-- The bound for an operator and for its operands. -/
theorem heightWithin_operator {level : Nat} (hor : Binding.or ≤ level)
    (hle : level ≤ Binding.unary) :
    HeightWithin (.expr level e) n ↔ e.height ≤ heightAlone n.levels + n.levels + n.links := by
  have hlevel : level ≠ Binding.conditional := by
    rintro rfl
    exact absurd hor (by decide)
  rw [HeightWithin, if_neg hlevel, if_pos hle]

/-- The bound for a chain of members and for what stands alone. -/
theorem heightWithin_member {level : Nat} (hle : Binding.member ≤ level) :
    HeightWithin (.expr level e) n ↔ e.height ≤ heightAlone n.levels + n.links := by
  have hlevel : level ≠ Binding.conditional := by
    rintro rfl
    exact absurd hle (by decide)
  have hunary : ¬level ≤ Binding.unary := Nat.not_le.mpr hle
  rw [HeightWithin, if_neg hlevel, if_neg hunary]

/-- An operand, whatever chain it ends in, with room for two chains. -/
theorem HeightWithin.operand {level : Nat} (h : HeightWithin (.expr level e) n)
    (hor : Binding.or ≤ level) (hle : level ≤ Binding.unary) :
    e.height ≤ heightAlone n.levels + 2 * n.levels := by
  have hbound := (heightWithin_operator hor hle).mp h
  have hlinks := n.links_le
  omega

/-! ## Each construct from its parts -/

/-- A negated expression is at most one higher. -/
theorem height_negation (e : Expr Unit) : (negation e).height ≤ e.height + 1 := by
  have hcall : (Expr.call () "-_" [e]).height = e.height + 1 := by
    rw [height, heightOfList, heightOfList, Nat.max_zero]
  unfold negation
  split
  · split
    · rw [hcall]
    · rw [height, height]
      omega
  · rw [height, height]
    omega
  · rw [hcall]

/-- A call is a node around its arguments; the macro in its place is no higher. -/
theorem height_globalCall {name : String} {args : List (Expr Unit)} {bound : Nat}
    (he : globalCall? m name args = some e) (hpos : 0 < bound)
    (hargs : ∀ a ∈ args, a.height < bound) : e.height ≤ bound := by
  unfold globalCall? at he
  split at he
  · next operand field =>
    have hselect := hargs _ List.mem_cons_self
    rw [← Option.some.inj he]
    rw [height] at hselect ⊢
    exact Nat.le_of_lt hselect
  · cases he
  · rw [← Option.some.inj he, height]
    exact (heightOfList_lt hpos).mpr hargs

/-- A call on a target is a node around the target and the arguments, and so is a loop. -/
theorem height_receiverCall {name : String} {target : Expr Unit} {args : List (Expr Unit)}
    {bound : Nat} (he : receiverCall? m target name args = some e)
    (htarget : target.height < bound) (hargs : ∀ a ∈ args, a.height < bound) :
    e.height ≤ bound := by
  unfold receiverCall? at he
  split at he
  · next body _ =>
    rw [← Option.some.inj he, height]
    exact Nat.max_lt.mpr ⟨htarget, hargs body (by simp)⟩
  · cases he
  · rw [← Option.some.inj he, height]
    exact Nat.max_lt.mpr ⟨htarget, (heightOfList_lt (Nat.zero_lt_of_lt htarget)).mpr hargs⟩

/-- A link of a chain leaves room for a node around what comes before it. -/
theorem lt_heightAlone_link {part : Nat} (h : e.height ≤ heightAlone n.levels + n.links) :
    e.height < heightAlone (n.link part).levels + (n.link part).links := by
  have hmono := heightAlone_mono (Nat.le_max_left n.levels (n.links + 1 + part))
  rw [Nesting.link_levels, Nesting.link_links]
  omega

/-- A link of a chain leaves room for a node around the whole expression that is read at it. -/
theorem FitsWhole.lt_heightAlone_link (h : FitsWhole e a) (n : Nesting) :
    e.height < heightAlone (n.link a).levels + (n.link a).links := by
  have hle : a ≤ (n.link a).levels := by
    rw [Nesting.link_levels]
    omega
  exact Nat.lt_add_right _ (h.mono hle).lt_heightAlone

/-- An operator is a node around both its operands. -/
theorem height_operator {k : Kind} {op : BinaryOp} {level : Nat} {l r : Expr Unit} {n₁ n₂ : Nesting}
    (hi : Infix level k op) (hl : HeightWithin (.expr level l) n₁)
    (hr : HeightWithin (.expr (level + 1) r) n₂) :
    HeightWithin (.expr level (.call () op.function [l, r])) (n₁.link n₂.levels) := by
  have hor := hi.or_le
  have hle := hi.le_multiplicative
  have hunary : level ≤ Binding.unary := Nat.le_succ_of_le hle
  have hleft := (heightWithin_operator hor hunary).mp hl
  have hright := hr.operand (Nat.le_succ_of_le hor) (Nat.succ_le_succ hle)
  -- The right operand lies below the levels of the whole, which leave more room.
  have hlevels : n₂.levels < (n₁.link n₂.levels).levels := by
    rw [Nesting.link_levels]
    omega
  have hroom := Nat.lt_of_lt_of_le (heightAlone_add_lt hlevels) (Nat.le_max_right 1 _)
  have hmono : n₁.levels ≤ (n₁.link n₂.levels).levels := Nat.le_max_left _ _
  have halone := heightAlone_mono hmono
  rw [heightWithin_operator hor hunary, height, heightOfList, heightOfList, heightOfList,
    Nesting.link_links]
  change _ < heightAlone (n₁.link n₂.levels).levels at hroom
  omega

/-- A conditional is a node around its three operands, the last of which is a whole expression. -/
theorem height_conditional {c t e : Expr Unit} {n₁ n₂ n₃ : Nesting}
    (hc : HeightWithin (.expr Binding.or c) n₁) (ht : HeightWithin (.expr Binding.or t) n₂)
    (he : FitsWhole e n₃.levels) :
    FitsWhole (.call () Operator.conditional [c, t, e])
      (max n₁.levels (max n₂.levels n₃.levels) + 1) := by
  have hcondition := hc.operand (by decide) (by decide)
  have hbranch := ht.operand (by decide) (by decide)
  have hlast := he.lt_heightAlone
  have hpos := he.pos
  generalize hmax : max n₁.levels (max n₂.levels n₃.levels) = levels
  -- One level more leaves room for the node and for the chains of its parts.
  have hroom := heightAlone_add_succ_lt (show 0 < levels by omega)
  have h₁ := heightAlone_mono (show n₁.levels ≤ levels by omega)
  have h₂ := heightAlone_mono (show n₂.levels ≤ levels by omega)
  have h₃ := heightAlone_mono (show n₃.levels ≤ levels by omega)
  rw [FitsWhole, height, heightOfList, heightOfList, heightOfList, heightOfList]
  omega

/-- A sign is a node around its operand. -/
theorem height_sign {e' : Expr Unit} (h : HeightWithin (.expr Binding.unary e) n)
    (he' : e'.height ≤ e.height + 1) :
    HeightWithin (.expr Binding.unary e') (.closed (n.levels + 1)) := by
  have hoperand := h.operand (by decide) (by decide)
  have hroom := Nat.lt_of_lt_of_le (heightAlone_add_lt (Nat.lt_add_one n.levels))
    (Nat.le_max_right 1 _)
  change _ < heightAlone (n.levels + 1) at hroom
  rw [heightWithin_operator (by decide) (by decide), Nesting.closed_levels, Nesting.closed_links]
  omega

/-- A bound for a level is one for the next looser level. -/
theorem HeightWithin.tighter {level : Nat} (h : HeightWithin (.expr (level + 1) e) n)
    (hlevel : Binding.conditional ≤ level) : HeightWithin (.expr level e) (n.loosen level) := by
  rcases Nat.lt_or_ge level Binding.or with hlt | hor
  · -- A whole expression is a level of its own.
    obtain rfl : level = Binding.conditional := Nat.le_antisymm (Nat.le_of_lt_succ hlt) hlevel
    have hoperand := h.operand (by decide) (by decide)
    exact Nat.lt_of_le_of_lt hoperand (heightAlone_add_lt (Nat.lt_add_one n.levels))
  · have hne : level ≠ Binding.conditional := by
      rintro rfl
      exact absurd hor (by decide)
    rcases Nat.lt_trichotomy level Binding.unary with hlt | rfl | hgt
    · rw [Nesting.loosen, if_neg hne, if_neg (Nat.ne_of_lt hlt),
        heightWithin_operator hor (Nat.le_of_lt hlt)]
      exact (heightWithin_operator (Nat.le_succ_of_le hor) hlt).mp h
    · -- A chain of members ends where it is an operand.
      have hmember := (heightWithin_member (by decide)).mp h
      have hlinks := n.links_le
      rw [Nesting.loosen, if_neg hne, if_pos rfl, heightWithin_operator (by decide) (by decide),
        Nesting.closed_levels, Nesting.closed_links]
      omega
    · rw [Nesting.loosen, if_neg hne, if_neg (Nat.ne_of_gt hgt), heightWithin_member hgt]
      exact (heightWithin_member (Nat.le_succ_of_le hgt)).mp h

/-- What takes a number of levels is no higher than they allow. -/
theorem Takes.heightWithin (h : Takes m p ks n) : HeightWithin p n := by
  induction h with
  | tighter hlevel _ ih => exact HeightWithin.tighter ih hlevel
  | conditional _ _ _ ihc iht ihe => exact height_conditional ihc iht ihe
  | binary hi _ _ ihl ihr => exact height_operator hi ihl ihr
  | not _ ih =>
    refine height_sign ih ?_
    rw [height, heightOfList, heightOfList, Nat.max_zero]
  | negate _ ih => exact height_sign ih (height_negation _)
  | select _ ih =>
    rw [heightWithin_member (by decide)] at ih ⊢
    rw [height]
    exact lt_heightAlone_link ih
  -- Both parts of an index are a link below it.
  | index _ _ ihe ihi =>
    rw [heightWithin_member (by decide)] at ihe ⊢
    rw [height]
    refine (heightOfList_lt (Nat.zero_lt_of_lt (lt_heightAlone_link ihe))).mpr
      (List.forall_mem_cons.mpr ⟨lt_heightAlone_link ihe, List.forall_mem_singleton.mpr ?_⟩)
    exact FitsWhole.lt_heightAlone_link ihi _
  | invoke _ _ he iht iha =>
    rw [heightWithin_member (by decide)] at iht ⊢
    exact height_receiverCall he (lt_heightAlone_link iht) fun a ha =>
      FitsWhole.lt_heightAlone_link (iha a ha) _
  | literal | ident =>
    rw [heightWithin_member (by decide), height]
    exact heightAlone_pos 0
  | call _ he ih =>
    rw [heightWithin_member (by decide)]
    exact height_globalCall he (heightAlone_pos _) fun a ha => FitsWhole.lt_heightAlone (ih a ha)
  | parens _ ih =>
    rw [heightWithin_member (by decide)]
    exact Nat.le_of_lt (FitsWhole.lt_heightAlone ih)
  | list _ ih =>
    rw [heightWithin_member (by decide), height]
    exact (heightOfList_lt (heightAlone_pos _)).mpr fun e he => FitsWhole.lt_heightAlone (ih e he)
  | map _ ih =>
    rw [heightWithin_member (by decide), height]
    exact (heightOfEntries_lt (heightAlone_pos _)).mpr fun e he =>
      ⟨FitsWhole.lt_heightAlone (ih e he).1, FitsWhole.lt_heightAlone (ih e he).2⟩
  | noItems | noEntries => exact List.forall_mem_nil _
  | lastItem _ ih => exact List.forall_mem_singleton.mpr ih
  | moreItems _ _ ih ihs =>
    exact List.forall_mem_cons.mpr ⟨FitsWhole.mono ih (Nat.le_max_left _ _), fun e he =>
      FitsWhole.mono (ihs e he) (Nat.le_max_right _ _)⟩
  | lastEntry _ _ ihk ihv =>
    exact List.forall_mem_singleton.mpr ⟨FitsWhole.mono ihk (Nat.le_max_left _ _),
      FitsWhole.mono ihv (Nat.le_max_right _ _)⟩
  | moreEntries _ _ _ ihk ihv ihs =>
    refine List.forall_mem_cons.mpr ⟨⟨FitsWhole.mono ihk ?_, FitsWhole.mono ihv ?_⟩, fun e he =>
      ⟨FitsWhole.mono (ihs e he).1 (Nat.le_max_right _ _),
        FitsWhole.mono (ihs e he).2 (Nat.le_max_right _ _)⟩⟩
    · exact Nat.le_trans (Nat.le_max_left _ _) (Nat.le_max_left _ _)
    · exact Nat.le_trans (Nat.le_max_right _ _) (Nat.le_max_left _ _)

end Grammar

namespace Expr

open Grammar CelShell.Parser

variable {tokens : List Token} {m : Bool} {t : Tree}

/-- The tokens of a tree take no more levels than there are. -/
theorem exists_takes_of_ofTokens (h : ofTokens tokens m = .ok t) :
    ∃ ks n, Takes m (.expr Binding.conditional t.bare) ks n ∧ n.levels ≤ maxDepth := by
  obtain ⟨c', hr, hend⟩ := run_of_ofTokens h
  obtain ⟨ks, hreads, hderives⟩ := expr_sound rfl hr
  obtain ⟨n, htakes⟩ := hderives.exists_takes
  -- Behind the tree stands the end mark or nothing.
  have hrest : EndsExpr c'.kinds := by
    cases hk : c'.kinds with
    | nil => exact endsExpr_nil
    | cons k rest =>
      have hkind : k = .eof := Cursor.kind_of_kinds hk ▸ Cursor.atEnd_iff.1 hend
      exact hkind ▸ endsExpr_eof
  have hstart : At m ⟨tokens, .dummy, 1, m⟩ (ks ++ c'.kinds) := ⟨hreads.kinds, rfl⟩
  have hdecides : Decides (n.levels ≤ maxDepth) (Parser.expr maxDepth ⟨tokens, .dummy, 1, m⟩)
      (Read m t.bare c'.kinds) := expr_decides htakes hstart hrest
  rw [hr] at hdecides
  exact ⟨ks, n, htakes, hdecides.1⟩

/-- The height of a parsed tree is less than the limit on nesting times its successor, which is
10100 for a limit of 100. -/
theorem height_lt_of_ofTokens (tokens : List Token) (m : Bool) (t : Tree)
    (h : ofTokens tokens m = .ok t) : t.height < maxDepth * (maxDepth + 1) := by
  obtain ⟨ks, n, htakes, hlevels⟩ := exists_takes_of_ofTokens h
  have hfits : FitsWhole t.bare n.levels := htakes.heightWithin
  rw [← height_bare]
  exact hfits.mono hlevels

/-- Tokens of some kinds with an end mark after them, all at one place. -/
def tokensOf (kinds : List Kind) : List Token := (kinds ++ [Kind.eof]).map fun k => ⟨k, .dummy⟩

/-- Fifty lists in each other, and then fifty-one fields. -/
def tallKinds : List Kind :=
  List.replicate 50 (.symbol .leftBracket) ++ List.replicate 50 (.symbol .rightBracket) ++
    (List.replicate 51 [.symbol .dot, .ident "a"]).flatten

/-- A tree that is higher than the limit but not as high as can be. -/
theorem height_lt_of_ofTokens_tall :
    ∃ t, ofTokens (tokensOf tallKinds) false = .ok t ∧ t.height < maxDepth * (maxDepth + 1) := by
  have hsome : (ofTokens (tokensOf tallKinds) false).toOption.isSome = true := by decide +kernel
  cases h : ofTokens (tokensOf tallKinds) false with
  | error e => rw [h] at hsome; cases hsome
  | ok t => exact ⟨t, rfl, height_lt_of_ofTokens _ false t h⟩

/-- A parsed tree can be higher than the limit. -/
theorem exists_height_gt_maxDepth :
    ∃ t, ofTokens (tokensOf tallKinds) false = .ok t ∧ maxDepth < t.height := by
  have hheight : (ofTokens (tokensOf tallKinds) false).toOption.map height = some 101 := by
    decide +kernel
  cases h : ofTokens (tokensOf tallKinds) false with
  | error e => rw [h] at hheight; cases hheight
  | ok t =>
    rw [h] at hheight
    exact ⟨t, rfl, by rw [Option.some.inj hheight]; decide⟩

end Expr

/-! ## The bound is attained -/

namespace Grammar

open CelShell.Expr

variable {m : Bool} {e : Expr Unit} {ks : List Kind} {n : Nesting}

/-- A chain of members is an operand of the loosest operator. -/
theorem Takes.operand (h : Takes m (.expr Binding.member e) ks n) :
    Takes m (.expr Binding.or e) ks (.closed n.levels) :=
  h.loosen (by decide) (Nat.le_refl _) (Nat.le_refl _)

/-- As many fields as levels are a chain around what stands alone. -/
theorem exists_takes_fields (h : Takes m (.expr Binding.member e) ks n) (hlinks : n.links = 0)
    {count : Nat} (hcount : count ≤ n.levels) :
    ∃ e' ks' n', Takes m (.expr Binding.member e') ks' n' ∧ n'.links = count ∧
      n'.levels = n.levels ∧ e'.height = e.height + count := by
  induction count with
  | zero => exact ⟨e, ks, n, h, hlinks, rfl, rfl⟩
  | succ count ih =>
    obtain ⟨e', ks', n', h', hlinks', hlevels', hheight⟩ := ih (Nat.le_of_succ_le hcount)
    -- One more field is one more link, within the levels as long as there are fewer links.
    have hselect : Takes m (.expr Binding.member (.select () e' "a" false)) _ _ := .select h'
    refine ⟨_, _, _, hselect, ?_, ?_, ?_⟩
    · rw [Nesting.link_links, hlinks']
    · rw [Nesting.link_levels]
      omega
    · rw [height, hheight]
      rfl

/-- As many disjunctions as levels are a chain around an operand. -/
theorem exists_takes_disjunctions (h : Takes m (.expr Binding.or e) ks n) (hlinks : n.links = 0)
    (hpos : 0 < e.height) {count : Nat} (hcount : count ≤ n.levels) :
    ∃ e' ks' n', Takes m (.expr Binding.or e') ks' n' ∧ n'.links = count ∧
      n'.levels = n.levels ∧ e'.height = e.height + count := by
  induction count with
  | zero => exact ⟨e, ks, n, h, hlinks, rfl, rfl⟩
  | succ count ih =>
    obtain ⟨e', ks', n', h', hlinks', hlevels', hheight⟩ := ih (Nat.le_of_succ_le hcount)
    -- One more name behind an operator is one more link.
    refine ⟨_, _, _, .binary .or h' (takes_name "a" (by decide) (by decide)), ?_, ?_, ?_⟩
    · rw [Nesting.link_links, hlinks']
    · rw [Nesting.link_levels, Nesting.closed_levels]
      omega
    · rw [height, heightOfList, heightOfList, heightOfList, height]
      omega

/-- With every level a list, a chain of fields, a chain of disjunctions and a conditional come
around the highest tree of the levels below. -/
theorem exists_takes_height (m : Bool) (levels : Nat) :
    ∃ e ks n, Takes m (.expr Binding.conditional e) ks n ∧ n.levels = levels + 1 ∧
      e.height + 1 = (levels + 1) * (levels + 2) := by
  have hname : Takes m (.expr Binding.or (.ident () "a")) [.ident "a"] (.closed 0) :=
    takes_name "a" (Nat.le_refl _) (by decide)
  have hwhole : Takes m (.expr Binding.conditional (.ident () "a")) [.ident "a"] (.closed 1) :=
    .tighter (by decide) hname
  induction levels with
  | zero => exact ⟨_, _, _, hwhole, rfl, rfl⟩
  | succ levels ih =>
    -- The chains are as long as the levels are many, which makes the height a square.
    obtain ⟨e, ks, n, h, hlevels, hheight⟩ := ih
    have hlist : Takes m (.expr Binding.member (.list () [e])) _ (.closed n.levels) :=
      .tighter (by decide) (.list (n := .closed n.levels) (.lastItem h))
    have hlistHeight : (Expr.list () [e]).height = e.height + 1 := by
      rw [height, heightOfList, heightOfList, Nat.max_zero]
    obtain ⟨e₁, ks₁, n₁, h₁, -, hlevels₁, hheight₁⟩ :=
      exists_takes_fields hlist rfl (Nat.le_refl n.levels)
    obtain ⟨e₂, ks₂, n₂, h₂, -, hlevels₂, hheight₂⟩ :=
      exists_takes_disjunctions h₁.operand rfl (by omega) (Nat.le_refl n₁.levels)
    rw [Nesting.closed_levels] at hlevels₁ hlevels₂
    refine ⟨_, _, _, .conditional h₂ hname hwhole, ?_, ?_⟩
    · simp only [Nesting.closed_levels]
      omega
    · have hexpand : (levels + 1 + 1) * (levels + 1 + 2) =
          (levels + 1) * (levels + 2) + 2 * levels + 4 := by ring
      simp only [height, heightOfList]
      omega

/-- The bound on the height of a parsed tree is attained. -/
theorem exists_ofTokens_height (m : Bool) :
    ∃ tokens t, ofTokens tokens m = .ok t ∧ t.height + 1 = maxDepth * (maxDepth + 1) := by
  obtain ⟨e, ks, n, h, hlevels, hheight⟩ := exists_takes_height m 99
  have hkinds : (tokensOf ks).map Token.kind = ks ++ [.eof] := by
    rw [tokensOf, List.map_map]
    exact List.map_id _
  obtain ⟨t, ht, hbare⟩ := (ofTokens_of_takes hkinds h).1 (Nat.le_of_eq hlevels)
  refine ⟨tokensOf ks, t, ht, ?_⟩
  rw [← height_bare, hbare, hheight]
  rfl

end Grammar

end CelShell
