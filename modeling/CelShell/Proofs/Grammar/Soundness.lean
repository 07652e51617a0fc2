import CelShell.Proofs.Grammar.Run

/-!
# What is parsed is derived

A parser that succeeds has consumed tokens that derive its tree. The induction is on the budget:
each parser of a budget is sound if those of the budget below are (`Level.Sound`).

A chain of operators carries its own invariant. What was read of it derives at some level, and no
operator that binds tighter than that level comes next, because the right operand read last has
taken them all. So the next operator can take what was read as its left operand.
-/

namespace CelShell

namespace Grammar

variable {m : Bool} {e : Expr Unit} {k : Kind} {ks : List Kind} {op : BinaryOp} {level : Nat}

/-- The grammar and the parser agree on the operators. -/
theorem infix_iff :
    Infix level k op ↔ BinaryOp.ofKind? k = some op ∧ op.binding = level := by
  constructor
  · rintro ⟨⟩ <;> exact ⟨rfl, rfl⟩
  · rintro ⟨hk, rfl⟩
    unfold BinaryOp.ofKind? at hk
    split at hk <;> simp only [Option.some.injEq, reduceCtorEq] at hk <;> subst hk <;> constructor

/-- No operator binds tighter than a product. -/
theorem Infix.le_multiplicative (h : Infix level k op) : level ≤ Binding.multiplicative := by
  cases h <;> decide

/-- Every operator binds tighter than the conditional. -/
theorem Infix.or_le (h : Infix level k op) : Binding.or ≤ level := by
  cases h <;> decide

/-- An expression of a level is one of every looser level. -/
theorem Derives.loosen {level' : Nat} (h : Derives m (.expr level e) ks)
    (hle : level' ≤ level) (hpos : Binding.conditional ≤ level') :
    Derives m (.expr level' e) ks := by
  induction hle with
  | refl => exact h
  | step hn ih => exact ih (.tighter (Nat.le_trans hpos hn) h)

/-- No operator that binds at least as tightly as a level comes next. -/
def EndsChain (least : Nat) (ks : List Kind) : Prop :=
  ∀ k rest op level, ks = k :: rest → Infix level k op → level < least

/-- Items with commas between them, up to one comma after the last. -/
inductive Separated {α : Type} (item : α → List Kind → Prop) : List α → List Kind → Prop where
  | nil : Separated item [] []
  | last {a : α} {ks : List Kind} : item a ks → Separated item [a] ks
  | more {a : α} {as : List α} {ks₁ ks₂ : List Kind} : item a ks₁ → Separated item as ks₂ →
      Separated item (a :: as) (ks₁ ++ .symbol .comma :: ks₂)

/-- What an expression in brackets has to be. -/
abbrev IsExpr (m : Bool) (e : Expr Unit) (ks : List Kind) : Prop :=
  Derives m (.expr Binding.conditional e) ks

/-- What an entry of a map has to be, given what an expression has to be. -/
def IsEntry {α : Type} (isExpr : α → List Kind → Prop) (e : α × α) (ks : List Kind) : Prop :=
  ∃ ks₁ ks₂, ks = ks₁ ++ .symbol .colon :: ks₂ ∧ isExpr e.1 ks₁ ∧ isExpr e.2 ks₂

/-- Items of the grammar are expressions with commas between them. -/
theorem derives_items_iff {es : List (Expr Unit)} :
    Derives m (.items es) ks ↔ Separated (IsExpr m) es ks := by
  constructor
  · intro h
    generalize hp : Phrase.items es = p at h
    induction h generalizing es with
    | noItems => cases hp; exact .nil
    | lastItem h => cases hp; exact .last h
    | moreItems h _ _ ih => cases hp; exact .more h (ih rfl)
    | _ => cases hp
  · intro h
    induction h with
    | nil => exact .noItems
    | last h => exact .lastItem h
    | more h _ ih => exact .moreItems h ih

/-- Entries of the grammar are keys with values, and commas between them. -/
theorem derives_entries_iff {es : List (Expr Unit × Expr Unit)} :
    Derives m (.entries es) ks ↔ Separated (IsEntry (IsExpr m)) es ks := by
  constructor
  · intro h
    generalize hp : Phrase.entries es = p at h
    induction h generalizing es with
    | noEntries => cases hp; exact .nil
    | lastEntry hk hv => cases hp; exact .last ⟨_, _, rfl, hk, hv⟩
    | @moreEntries k ks₁ v ks₂ es' ks₃ hk hv _ _ _ ih =>
      cases hp
      rw [← List.cons_append, ← List.append_assoc]
      exact .more ⟨_, _, rfl, hk, hv⟩ (ih rfl)
    | _ => cases hp
  · intro h
    induction h with
    | nil => exact .noEntries
    | last h =>
      obtain ⟨ks₁, ks₂, rfl, hk, hv⟩ := h
      exact .lastEntry hk hv
    | more h _ ih =>
      obtain ⟨ks₁, ks₂, rfl, hk, hv⟩ := h
      rw [List.append_assoc, List.cons_append]
      exact .moreEntries hk hv ih

end Grammar

namespace Parser

open Grammar

variable {α : Type} {m : Bool} {c c' : Cursor} {t : Tree}

/-! ## Items -/

/-- What is read up to a closing symbol are items with commas between them. -/
theorem itemsUpTo_sound {item : Parser α} {isItem : α → List Kind → Prop} {close : Symbol}
    (hitem : ∀ {c a c'}, c.macrosOn = m → item c = .ok a c' → ∃ ks, c.Reads ks c' ∧ isItem a ks)
    (n : Nat) {as : List α} (hm : c.macrosOn = m) (h : itemsUpTo item close n c = .ok as c') :
    ∃ ks, c.Reads (ks ++ [.symbol close]) c' ∧ Separated isItem as ks := by
  induction n generalizing c as with
  | zero =>
    -- With no token to spare this is the last item.
    rw [itemsUpTo] at h
    obtain ⟨a, c₁, ha, h⟩ := bind_eq_ok.1 h
    obtain ⟨_, c₂, he, h⟩ := bind_eq_ok.1 h
    obtain ⟨rfl, rfl⟩ := pure_eq_ok.1 h
    obtain ⟨ks, hr, hi⟩ := hitem hm ha
    exact ⟨ks, hr.trans (expect_eq_ok he), .last hi⟩
  | succ n ih =>
    rw [itemsUpTo, bind_of_ok (run_get c)] at h
    split at h
    · -- The closing symbol comes first, or after a comma.
      obtain ⟨_, c₁, he, h⟩ := bind_eq_ok.1 h
      obtain ⟨rfl, rfl⟩ := pure_eq_ok.1 h
      exact ⟨[], expect_eq_ok he, .nil⟩
    · -- Elsewhere an item comes, and a comma decides whether more may follow.
      obtain ⟨a, c₁, ha, h⟩ := bind_eq_ok.1 h
      obtain ⟨ks, hr, hi⟩ := hitem hm ha
      obtain ⟨b, c₂, hs, h⟩ := bind_eq_ok.1 h
      rcases skip_eq_ok hs with ⟨rfl, hr'⟩ | ⟨rfl, rfl, -⟩
      · obtain ⟨as', c₃, hrest, h⟩ := bind_eq_ok.1 h
        obtain ⟨rfl, rfl⟩ := pure_eq_ok.1 h
        obtain ⟨ks', hr'', hsep⟩ := ih (by rw [hr'.macrosOn, hr.macrosOn, hm]) hrest
        refine ⟨ks ++ .symbol .comma :: ks', ?_, .more hi hsep⟩
        simpa using (hr.trans hr').trans hr''
      · obtain ⟨_, c₃, he, h⟩ := bind_eq_ok.1 h
        obtain ⟨rfl, rfl⟩ := pure_eq_ok.1 h
        exact ⟨ks, hr.trans (expect_eq_ok he), .last hi⟩

/-- The bound of a list of items does not matter to what is read. -/
theorem items_sound {item : Parser α} {isItem : α → List Kind → Prop} {close : Symbol}
    (hitem : ∀ {c a c'}, c.macrosOn = m → item c = .ok a c' → ∃ ks, c.Reads ks c' ∧ isItem a ks)
    {as : List α} (hm : c.macrosOn = m) (h : items item close c = .ok as c') :
    ∃ ks, c.Reads (ks ++ [.symbol close]) c' ∧ Separated isItem as ks := by
  rw [items, bind_of_ok (run_get c)] at h
  exact itemsUpTo_sound hitem _ hm h

/-- A parser of expressions that is right where it succeeds. -/
def SoundExpr (m : Bool) (p : Parser Tree) : Prop :=
  ∀ {c t c'}, c.macrosOn = m → p c = .ok t c' → ∃ ks, c.Reads ks c' ∧ IsExpr m t.bare ks

/-- Items that were read as trees are items of bare trees. -/
theorem separated_bare {ts : List Tree} {ks : List Kind}
    (h : Separated (fun t => IsExpr m (Expr.bare t)) ts ks) :
    Separated (IsExpr m) (ts.map Expr.bare) ks := by
  induction h with
  | nil => exact .nil
  | last h => exact .last h
  | more h _ ih => exact .more h ih

/-- Entries that were read as trees are entries of bare trees. -/
theorem separated_bareEntries {ts : List (Tree × Tree)} {ks : List Kind}
    (h : Separated (fun t => IsEntry (IsExpr m) (t.1.bare, t.2.bare)) ts ks) :
    Separated (IsEntry (IsExpr m)) (Expr.bareEntries ts) ks := by
  induction h with
  | nil => exact .nil
  | last h => exact .last h
  | more h _ ih => exact .more h ih

/-- Arguments and elements are items of the grammar. -/
theorem items_expr_sound {expr : Parser Tree} (he : SoundExpr m expr) {close : Symbol}
    {ts : List Tree} (hm : c.macrosOn = m) (h : items expr close c = .ok ts c') :
    ∃ ks, c.Reads (ks ++ [.symbol close]) c' ∧ Derives m (.items (ts.map Expr.bare)) ks := by
  obtain ⟨ks, hr, hs⟩ : ∃ ks, c.Reads (ks ++ [.symbol close]) c' ∧
      Separated (fun t => IsExpr m (Expr.bare t)) ts ks := items_sound he hm h
  exact ⟨ks, hr, derives_items_iff.2 (separated_bare hs)⟩

namespace Level

/-- The parsers of a budget are right where they succeed. -/
structure Sound (m : Bool) (l : Level) : Prop where
  /-- A whole expression derives. -/
  expr : SoundExpr m l.expr
  /-- An operand derives. -/
  unary : ∀ {c t c'}, c.macrosOn = m → l.unary c = .ok t c' →
    ∃ ks, c.Reads ks c' ∧ Derives m (.expr Binding.unary t.bare) ks
  /-- A chain of members derives from what was read of it. -/
  memberChain : ∀ {target c t c' ks₀}, c.macrosOn = m → l.memberChain target c = .ok t c' →
    Derives m (.expr Binding.member target.bare) ks₀ →
    ∃ ks, c.Reads ks c' ∧ Derives m (.expr Binding.member t.bare) (ks₀ ++ ks)
  /-- A chain of operators derives from what was read of it, if the next operator can take that as
  its left operand. Where it ends no operator of the chain comes next. -/
  binaryChain : ∀ {least left c t c' level ks₀}, c.macrosOn = m →
    l.binaryChain least left c = .ok t c' → Binding.conditional ≤ least → least ≤ level →
    Derives m (.expr level left.bare) ks₀ → EndsChain (level + 1) c.kinds →
    ∃ ks, c.Reads ks c' ∧ Derives m (.expr least t.bare) (ks₀ ++ ks) ∧ EndsChain least c'.kinds

variable {l : Level} {least : Nat}

/-- A chain of operators derives at its level. -/
theorem Sound.binary (hl : l.Sound m) (hm : c.macrosOn = m) (h : l.binary least c = .ok t c')
    (hpos : Binding.conditional ≤ least) (hle : least ≤ Binding.unary) :
    ∃ ks, c.Reads ks c' ∧ Derives m (.expr least t.bare) ks ∧ EndsChain least c'.kinds := by
  obtain ⟨u, c₁, hu, h⟩ := bind_eq_ok.1 h
  obtain ⟨ks₀, hr, hd⟩ := hl.unary hm hu
  -- An operand alone is tighter than every operator, so the invariant of the chain holds at once.
  have hend : EndsChain (Binding.unary + 1) c₁.kinds := fun k rest op level _ hi =>
    Nat.lt_of_le_of_lt hi.le_multiplicative (by decide)
  obtain ⟨ks, hr', hd', hend'⟩ :=
    hl.binaryChain (by rw [hr.macrosOn, hm]) h hpos hle hd hend
  exact ⟨ks₀ ++ ks, hr.trans hr', hd', hend'⟩

/-- A conditional, or the chain of operators that would be its condition. -/
theorem Sound.conditional (hl : l.Sound m) : SoundExpr m l.conditional := by
  intro c t c' hm h
  obtain ⟨condition, c₁, hc, h⟩ := bind_eq_ok.1 h
  obtain ⟨ks₁, hr₁, hd₁, -⟩ := hl.binary hm hc (by decide) (by decide)
  obtain ⟨b, c₂, hs, h⟩ := bind_eq_ok.1 h
  -- Without a question mark the chain of operators is the whole expression.
  rcases skip_eq_ok hs with ⟨rfl, hr₂⟩ | ⟨rfl, rfl, -⟩
  · obtain ⟨yes, c₃, hy, h⟩ := bind_eq_ok.1 h
    -- The condition and the first branch are chains of operators, the last is any expression.
    have hm₂ : c₂.macrosOn = m := by rw [hr₂.macrosOn, hr₁.macrosOn, hm]
    obtain ⟨ks₂, hr₃, hd₂, -⟩ := hl.binary hm₂ hy (by decide) (by decide)
    obtain ⟨_, c₄, hcolon, h⟩ := bind_eq_ok.1 h
    have hr₄ := expect_eq_ok hcolon
    obtain ⟨no, c₅, hn, h⟩ := bind_eq_ok.1 h
    obtain ⟨ks₃, hr₅, hd₃⟩ := hl.expr (by rw [hr₄.macrosOn, hr₃.macrosOn, hm₂]) hn
    obtain ⟨mark, rfl, hr₆⟩ := node_eq_ok h
    refine ⟨ks₁ ++ .symbol .question :: (ks₂ ++ .symbol .colon :: ks₃), ?_, ?_⟩
    · simpa using ((((hr₁.trans hr₂).trans hr₃).trans hr₄).trans hr₅).trans hr₆
    · simpa using Derives.conditional hd₁ hd₂ hd₃
  · obtain ⟨rfl, rfl⟩ := pure_eq_ok.1 h
    exact ⟨ks₁, hr₁, hd₁.loosen (by decide) (by decide)⟩

/-- An entry of a map. -/
theorem entry_sound {expr : Parser Tree} (he : SoundExpr m expr) {entry : Tree × Tree}
    (hm : c.macrosOn = m)
    (h : (do let key ← expr; expect .colon; let value ← expr; return (key, value)) c
      = .ok entry c') :
    ∃ ks, c.Reads ks c' ∧ IsEntry (IsExpr m) (entry.1.bare, entry.2.bare) ks := by
  obtain ⟨key, c₁, hk, h⟩ := bind_eq_ok.1 h
  obtain ⟨ks₁, hr₁, hd₁⟩ := he hm hk
  obtain ⟨_, c₂, hcolon, h⟩ := bind_eq_ok.1 h
  -- The colon stands between the key and the value.
  have hr₂ := expect_eq_ok hcolon
  obtain ⟨value, c₃, hv, h⟩ := bind_eq_ok.1 h
  obtain ⟨ks₂, hr₃, hd₂⟩ := he (by rw [hr₂.macrosOn, hr₁.macrosOn, hm]) hv
  obtain ⟨rfl, rfl⟩ := pure_eq_ok.1 h
  refine ⟨ks₁ ++ .symbol .colon :: ks₂, ?_, ks₁, ks₂, rfl, hd₁, hd₂⟩
  simpa using (hr₁.trans hr₂).trans hr₃

/-- What stands alone. -/
theorem primary_sound {expr : Parser Tree} (he : SoundExpr m expr) (hm : c.macrosOn = m)
    (h : primary expr c = .ok t c') :
    ∃ ks, c.Reads ks c' ∧ Derives m (.expr Grammar.primary t.bare) ks := by
  unfold primary at h
  rw [bind_of_ok (run_get c)] at h
  -- The first token decides; the cursor after it is `c.skip`.
  have hfirst : ∀ {k span rest}, c.rest = ⟨k, span⟩ :: rest → c.Reads [k] c.skip := fun hr =>
    Cursor.reads_skip (by rw [Cursor.kinds, hr, List.map_cons])
  generalize hr : c.rest = tokens at h
  split at h
  · rename_i value span rest
    rw [bind_of_ok (run_advance c)] at h
    obtain ⟨mark, rfl, hn⟩ := node_eq_ok h
    exact ⟨_, (hfirst hr).trans hn, .literal⟩
  · -- A name: with a bracket after it a call, which a macro may have in its place.
    rename_i name span rest
    rw [bind_of_ok (run_advance c)] at h
    obtain ⟨b, c₁, hs, h⟩ := bind_eq_ok.1 h
    rcases skip_eq_ok hs with ⟨rfl, hr₁⟩ | ⟨rfl, rfl, -⟩
    · obtain ⟨args, c₂, ha, h⟩ := bind_eq_ok.1 h
      have hm₁ : c₁.macrosOn = m := by rw [hr₁.macrosOn, (hfirst hr).macrosOn, hm]
      obtain ⟨ks, hr₂, hd⟩ := items_expr_sound he hm₁ ha
      rw [bind_of_ok (run_get c₂)] at h
      obtain ⟨hg, hr₃⟩ := eq_ok_of_run (run_globalCall name args _ c₂) h
      rw [hr₂.macrosOn, hm₁] at hg
      exact ⟨_, (((hfirst hr).trans hr₁).trans hr₂).trans hr₃, by simpa using .call hd hg⟩
    · rw [if_neg Bool.false_ne_true] at h
      obtain ⟨mark, rfl, hn⟩ := node_eq_ok h
      exact ⟨_, (hfirst hr).trans hn, .ident⟩
  · -- Parentheses leave no node behind.
    rename_i span rest
    rw [bind_of_ok (run_advance c)] at h
    obtain ⟨inner, c₁, hi, h⟩ := bind_eq_ok.1 h
    obtain ⟨ks, hr₁, hd⟩ := he (by rw [(hfirst hr).macrosOn, hm]) hi
    obtain ⟨_, c₂, hp, h⟩ := bind_eq_ok.1 h
    obtain ⟨rfl, rfl⟩ := pure_eq_ok.1 h
    exact ⟨_, ((hfirst hr).trans hr₁).trans (expect_eq_ok hp), by simpa using .parens hd⟩
  · rename_i span rest
    rw [bind_of_ok (run_advance c)] at h
    obtain ⟨elements, c₁, hi, h⟩ := bind_eq_ok.1 h
    obtain ⟨ks, hr₁, hd⟩ := items_expr_sound he (by rw [(hfirst hr).macrosOn, hm]) hi
    rw [bind_of_ok (run_get c₁)] at h
    obtain ⟨mark, rfl, hn⟩ := node_eq_ok h
    exact ⟨_, ((hfirst hr).trans hr₁).trans hn, by simpa using .list hd⟩
  · rename_i span rest
    rw [bind_of_ok (run_advance c)] at h
    obtain ⟨entries, c₁, hi, h⟩ := bind_eq_ok.1 h
    obtain ⟨ks, hr₁, hd⟩ : ∃ ks, c.skip.Reads (ks ++ [.symbol .rightBrace]) c₁ ∧
        Separated (fun e => IsEntry (IsExpr m) (e.1.bare, e.2.bare)) entries ks :=
      items_sound (entry_sound he) (by rw [(hfirst hr).macrosOn, hm]) hi
    rw [bind_of_ok (run_get c₁)] at h
    obtain ⟨mark, rfl, hn⟩ := node_eq_ok h
    have hmap := Derives.map (derives_entries_iff.2 (separated_bareEntries hd))
    exact ⟨_, ((hfirst hr).trans hr₁).trans hn, by simpa using hmap⟩
  · cases h

/-- What follows a point. -/
theorem field_sound (hl : l.Sound m) {target : Tree} {ks₀ : List Kind} (hm : c.macrosOn = m)
    (hd₀ : Derives m (.expr Binding.member target.bare) ks₀) (h : l.field target c = .ok t c') :
    ∃ ks, c.Reads ks c' ∧
      Derives m (.expr Binding.member t.bare) (ks₀ ++ .symbol .dot :: ks) := by
  unfold field at h
  rw [bind_of_ok (run_get c)] at h
  generalize hr : c.rest = tokens at h
  split at h
  · rename_i name span rest
    have hfirst : c.Reads [.ident name] c.skip :=
      Cursor.reads_skip (by rw [Cursor.kinds, hr, List.map_cons])
    rw [bind_of_ok (run_advance c)] at h
    obtain ⟨b, c₁, hs, h⟩ := bind_eq_ok.1 h
    -- With a bracket after it the name is called on the target, and else it is a field.
    rcases skip_eq_ok hs with ⟨rfl, hr₁⟩ | ⟨rfl, rfl, -⟩
    · obtain ⟨args, c₂, ha, h⟩ := bind_eq_ok.1 h
      have hm₁ : c₁.macrosOn = m := by rw [hr₁.macrosOn, hfirst.macrosOn, hm]
      obtain ⟨ks, hr₂, hd⟩ := items_expr_sound hl.expr hm₁ ha
      rw [bind_of_ok (run_get c₂)] at h
      obtain ⟨hg, hr₃⟩ := eq_ok_of_run (run_receiverCall target name args _ c₂) h
      rw [hr₂.macrosOn, hm₁] at hg
      exact ⟨_, ((hfirst.trans hr₁).trans hr₂).trans hr₃, by simpa using .invoke hd₀ hd hg⟩
    · rw [if_neg Bool.false_ne_true] at h
      obtain ⟨mark, rfl, hn⟩ := node_eq_ok h
      exact ⟨_, hfirst.trans hn, by simpa using .select hd₀⟩
  · cases h
  · cases h

/-- What follows an opening bracket. -/
theorem index_sound (hl : l.Sound m) {target : Tree} {ks₀ : List Kind} (hm : c.macrosOn = m)
    (hd₀ : Derives m (.expr Binding.member target.bare) ks₀) (h : l.index target c = .ok t c') :
    ∃ ks, c.Reads ks c' ∧
      Derives m (.expr Binding.member t.bare) (ks₀ ++ .symbol .leftBracket :: ks) := by
  obtain ⟨i, c₁, hi, h⟩ := bind_eq_ok.1 h
  obtain ⟨ks, hr₁, hd⟩ := hl.expr hm hi
  obtain ⟨_, c₂, he, h⟩ := bind_eq_ok.1 h
  rw [bind_of_ok (run_get c₂)] at h
  obtain ⟨mark, rfl, hn⟩ := node_eq_ok h
  exact ⟨_, (hr₁.trans (expect_eq_ok he)).trans hn, by simpa using .index hd₀ hd⟩

/-! ## From one budget to the next -/

variable {below : Option Level}

/-- The end of the tokens is no operator. -/
theorem kinds_of_operator {op : BinaryOp} (h : BinaryOp.ofKind? c.kind = some op) :
    ∃ k ks, c.kinds = k :: ks ∧ Infix op.binding k op := by
  have hne : c.kind ≠ .eof := fun he => by simp [he, BinaryOp.ofKind?] at h
  obtain ⟨ks, hk⟩ := Cursor.kinds_of_kind hne
  exact ⟨_, ks, hk, infix_iff.2 ⟨h, rfl⟩⟩

/-- Where no operator of a chain comes next, the chain has ended. -/
theorem endsChain_of_kind (h : ∀ op, BinaryOp.ofKind? c.kind = some op → op.binding < least) :
    EndsChain least c.kinds := by
  intro k rest op level hk hi
  obtain ⟨hop, rfl⟩ := infix_iff.1 hi
  exact h op (by rw [Cursor.kind_of_kinds hk, hop])

/-- Whole expressions are right where they succeed, if those of the level below are. -/
theorem ofBelow_expr_sound (hb : ∀ l, below = some l → l.Sound m) :
    SoundExpr m (ofBelow below).expr := by
  intro c t c' hm h
  cases below with
  | none => rw [run_expr_none] at h; cases h
  | some l => exact (hb l rfl).conditional hm h

/-- A chain of members derives from its target and the tokens of its links. -/
theorem ofBelow_memberChain_sound (hb : ∀ l, below = some l → l.Sound m) {target : Tree}
    {ks₀ : List Kind} (hm : c.macrosOn = m) (h : (ofBelow below).memberChain target c = .ok t c')
    (hd : Derives m (.expr Binding.member target.bare) ks₀) :
    ∃ ks, c.Reads ks c' ∧ Derives m (.expr Binding.member t.bare) (ks₀ ++ ks) := by
  by_cases hk : c.kind = .symbol .dot ∨ c.kind = .symbol .leftBracket
  · cases below with
    | none => rw [run_memberChain_none hk] at h; cases h
    | some l =>
      have hl := hb l rfl
      have hne : c.kind ≠ .eof := by rcases hk with hk | hk <;> simp [hk]
      obtain ⟨ks, hks⟩ := Cursor.kinds_of_kind hne
      have hskip := Cursor.reads_skip hks
      have hm₁ : c.skip.macrosOn = m := by rw [hskip.macrosOn, hm]
      -- One link, then the rest of the chain with the budget below.
      have link : ∀ {p : Tree → Parser Tree}, (p target >>= l.memberChain) c.skip = .ok t c' →
          (∀ {t₁ c₁}, p target c.skip = .ok t₁ c₁ → ∃ ks₁, c.skip.Reads ks₁ c₁ ∧
            Derives m (.expr Binding.member t₁.bare) (ks₀ ++ c.kind :: ks₁)) →
          ∃ ks, c.Reads ks c' ∧ Derives m (.expr Binding.member t.bare) (ks₀ ++ ks) := by
        intro p hp hlink
        obtain ⟨t₁, c₁, h₁, hrest⟩ := bind_eq_ok.1 hp
        obtain ⟨ks₁, hr₁, hd₁⟩ := hlink h₁
        obtain ⟨ks₂, hr₂, hd₂⟩ := hl.memberChain (by rw [hr₁.macrosOn, hm₁]) hrest hd₁
        exact ⟨_, (hskip.trans hr₁).trans hr₂, by simpa using hd₂⟩
      rcases hk with hk | hk
      · rw [run_memberChain_dot hk] at h
        exact link h fun h₁ => hk ▸ field_sound hl hm₁ hd h₁
      · rw [run_memberChain_bracket hk] at h
        exact link h fun h₁ => hk ▸ index_sound hl hm₁ hd h₁
  · rw [not_or] at hk
    rw [run_memberChain_stop hk.1 hk.2, EStateM.Result.ok.injEq] at h
    obtain ⟨rfl, rfl⟩ := h
    exact ⟨[], .refl c, by simpa using hd⟩

/-- An operand derives from its signs and what they stand before. -/
theorem ofBelow_unary_sound (hb : ∀ l, below = some l → l.Sound m) (hm : c.macrosOn = m)
    (h : (ofBelow below).unary c = .ok t c') :
    ∃ ks, c.Reads ks c' ∧ Derives m (.expr Binding.unary t.bare) ks := by
  cases hop : UnaryOp.ofKind? c.kind with
  | none =>
    -- Without a sign it is a chain of members of this budget.
    rw [run_unary_member hop] at h
    obtain ⟨t₁, c₁, hp, h⟩ := bind_eq_ok.1 h
    obtain ⟨ks₁, hr₁, hd₁⟩ := primary_sound (ofBelow_expr_sound hb) hm hp
    obtain ⟨ks₂, hr₂, hd₂⟩ := ofBelow_memberChain_sound hb (by rw [hr₁.macrosOn, hm]) h
      (hd₁.loosen (by decide) (by decide))
    exact ⟨_, hr₁.trans hr₂, hd₂.loosen (by decide) (by decide)⟩
  | some op =>
    cases below with
    | none => rw [run_unary_none hop] at h; cases h
    | some l =>
      -- The operand is read with the budget below, so the hypothesis on that one applies.
      rw [run_unary_operator hop] at h
      have hne : c.kind ≠ .eof := fun he => by simp [he, UnaryOp.ofKind?] at hop
      obtain ⟨ks, hks⟩ := Cursor.kinds_of_kind hne
      have hskip := Cursor.reads_skip hks
      obtain ⟨t₁, c₁, h₁, h⟩ := bind_eq_ok.1 h
      obtain ⟨ks₁, hr₁, hd₁⟩ := (hb l rfl).unary (by rw [hskip.macrosOn, hm]) h₁
      cases op with
      | not =>
        have hk : c.kind = .symbol .not := by
          unfold UnaryOp.ofKind? at hop; split at hop <;> simp_all
        obtain ⟨t₂, c₂, hn, hb₂, hr₂⟩ := run_not t₁ (c.span.cover t₁.mark.span) c₁
        rw [hn, EStateM.Result.ok.injEq] at h
        obtain ⟨rfl, rfl⟩ := h
        exact ⟨_, (hskip.trans hr₁).trans hr₂, by simpa [hb₂, hk] using .not hd₁⟩
      | negate =>
        have hk : c.kind = .symbol .minus := by
          unfold UnaryOp.ofKind? at hop; split at hop <;> simp_all
        obtain ⟨t₂, c₂, hn, hb₂, hr₂⟩ := run_negate t₁ (c.span.cover t₁.mark.span) c₁
        rw [hn, EStateM.Result.ok.injEq] at h
        obtain ⟨rfl, rfl⟩ := h
        exact ⟨_, (hskip.trans hr₁).trans hr₂, by simpa [hb₂, hk] using .negate hd₁⟩

/-- A chain of operators derives from its left operand and the tokens of its links, and no operator
of the chain is left behind it. -/
theorem ofBelow_binaryChain_sound (hb : ∀ l, below = some l → l.Sound m) {left : Tree}
    {level : Nat} {ks₀ : List Kind} (hm : c.macrosOn = m)
    (h : (ofBelow below).binaryChain least left c = .ok t c') (hpos : Binding.conditional ≤ least)
    (hle : least ≤ level) (hd : Derives m (.expr level left.bare) ks₀)
    (hend : EndsChain (level + 1) c.kinds) :
    ∃ ks, c.Reads ks c' ∧ Derives m (.expr least t.bare) (ks₀ ++ ks) ∧
      EndsChain least c'.kinds := by
  cases hop : BinaryOp.ofKind? c.kind with
  | none =>
    rw [run_binaryChain_stop hop, EStateM.Result.ok.injEq] at h
    obtain ⟨rfl, rfl⟩ := h
    exact ⟨[], .refl c, by simpa using hd.loosen hle hpos,
      endsChain_of_kind fun op h => by simp [hop] at h⟩
  | some op =>
    by_cases hlt : op.binding < least
    · rw [run_binaryChain_loose hop hlt, EStateM.Result.ok.injEq] at h
      obtain ⟨rfl, rfl⟩ := h
      refine ⟨[], .refl c, by simpa using hd.loosen hle hpos, endsChain_of_kind fun op' h' => ?_⟩
      rw [hop, Option.some.injEq] at h'
      exact h' ▸ hlt
    · have hge := Nat.not_lt.1 hlt
      cases below with
      | none => rw [run_binaryChain_none hop hge] at h; cases h
      | some l =>
        have hl := hb l rfl
        rw [run_binaryChain_link hop hge] at h
        obtain ⟨k, ks, hks, hi⟩ := kinds_of_operator hop
        have hskip := Cursor.reads_skip hks
        have hm₁ : c.skip.macrosOn = m := by rw [hskip.macrosOn, hm]
        -- The right operand binds tighter than the operator, so the chain goes left.
        obtain ⟨right, c₁, hr, h⟩ := bind_eq_ok.1 h
        obtain ⟨ks₁, hr₁, hd₁, hend₁⟩ := hl.binary hm₁ hr (Nat.le_add_left 1 _)
          (Nat.succ_le_succ hi.le_multiplicative)
        obtain ⟨t₁, c₂, hn, h⟩ := bind_eq_ok.1 h
        obtain ⟨mark, rfl, hr₂⟩ := node_eq_ok hn
        -- What was read so far is a left operand of this operator.
        have hleft : Derives m (.expr op.binding left.bare) ks₀ :=
          hd.loosen (Nat.le_of_lt_succ (hend k ks op _ hks hi)) (Nat.le_trans hpos hge)
        have hd₂ : Derives m (.expr op.binding (Expr.call mark op.function [left, right]).bare)
            (ks₀ ++ k :: ks₁) := by simpa using .binary hi hleft hd₁
        obtain ⟨ks₂, hr₃, hd₃, hend₃⟩ := hl.binaryChain
          (by rw [hr₂.macrosOn, hr₁.macrosOn, hm₁]) h hpos hge hd₂
          ((hr₂.rest_eq rfl : c₂.kinds = c₁.kinds) ▸ hend₁)
        exact ⟨_, ((hskip.trans hr₁).trans hr₂).trans hr₃, by simpa using hd₃, hend₃⟩

/-- The parsers of a budget are sound if those of the budget below are. -/
theorem ofBelow_sound (hb : ∀ l, below = some l → l.Sound m) : (ofBelow below).Sound m where
  expr := ofBelow_expr_sound hb
  unary := ofBelow_unary_sound hb
  memberChain := ofBelow_memberChain_sound hb
  binaryChain := ofBelow_binaryChain_sound hb

end Level

/-- The parsers of every budget are sound. -/
theorem level_sound (m : Bool) (budget : Nat) : (level budget).Sound m := by
  induction budget with
  | zero => exact Level.ofBelow_sound fun l h => by cases h
  | succ budget ih => exact Level.ofBelow_sound fun l h => by cases h; exact ih

/-- An expression that was parsed derives from the tokens consumed. -/
theorem expr_sound {budget : Nat} (hm : c.macrosOn = m) (h : expr budget c = .ok t c') :
    ∃ ks, c.Reads ks c' ∧ Derives m (.expr Binding.conditional t.bare) ks :=
  (level_sound m budget).expr hm h

end Parser

end CelShell
