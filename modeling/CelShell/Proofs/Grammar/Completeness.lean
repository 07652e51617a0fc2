import CelShell.Proofs.Grammar.Nesting

/-!
# What is derived is parsed

Where tokens derive a tree, a parser that meets them gives the tree if its budget is that of the
levels they take, and otherwise it stops at the nesting limit (`Parser.Decides`), provided that the
tokens after them are none that it would take as well. The induction is on the derivation.

The trees of a chain grow to the left while the parser reads on to the right, so what a derivation
of a member or of an operator says of the parser is put with a continuation: a chain that meets the
tokens of the derivation goes on with its tree in hand, with the budget that its links have left, in
the rest.
-/

namespace CelShell

/-- The error of an expression that is nested too deep. -/
def SyntaxError.IsNestingLimit (e : SyntaxError) : Prop :=
  ∃ span, e = .message "expression nested more than 100 levels deep" span

/-- The error of nesting is the nesting limit. -/
theorem Cursor.tooDeepError_isNestingLimit (c : Cursor) : c.tooDeepError.IsNestingLimit :=
  ⟨c.span, rfl⟩

namespace Grammar

variable {m : Bool} {k : Kind} {ks rest : List Kind} {least level : Nat}

/-! ## What may come next -/

/-- The next token makes no call of a name before it. -/
def EndsName (rest : List Kind) : Prop := ∀ ks, rest ≠ .symbol .leftParen :: ks

/-- The next token does not belong to a chain of members. -/
structure EndsMember (rest : List Kind) : Prop where
  name : EndsName rest
  dot : ∀ ks, rest ≠ .symbol .dot :: ks
  bracket : ∀ ks, rest ≠ .symbol .leftBracket :: ks

/-- The next token does not belong to an expression. -/
structure EndsExpr (rest : List Kind) : Prop where
  member : EndsMember rest
  chain : EndsChain Binding.or rest
  question : ∀ ks, rest ≠ .symbol .question :: ks

/-- The symbols that come after an expression in brackets. -/
def Closes (s : Symbol) : Prop :=
  s = .rightParen ∨ s = .rightBracket ∨ s = .rightBrace ∨ s = .comma ∨ s = .colon

/-- The symbols that end a list of items. -/
def IsClosing (s : Symbol) : Prop := s = .rightParen ∨ s = .rightBracket ∨ s = .rightBrace

/-- What ends a list of items comes after an expression. -/
theorem IsClosing.closes {s : Symbol} (h : IsClosing s) : Closes s := by
  rcases h with rfl | rfl | rfl <;> simp [Closes]

/-- What ends a list of items is no comma, which would go on with it. -/
theorem IsClosing.ne_comma {s : Symbol} (h : IsClosing s) : s ≠ .comma := by
  rcases h with rfl | rfl | rfl <;> simp

/-- No operator goes on with a chain of members. -/
theorem Infix.endsMember (h : Infix level k op) : EndsMember (k :: rest) := by
  cases h <;> exact ⟨by simp [EndsName], by simp, by simp⟩

/-- An operator is not taken by a chain of those that bind tighter. -/
theorem Infix.endsChain (h : Infix level k op) : EndsChain (level + 1) (k :: rest) := by
  intro k' rest' op' level' hk h'
  cases hk
  obtain ⟨hop, rfl⟩ := infix_iff.1 h
  obtain ⟨hop', rfl⟩ := infix_iff.1 h'
  rw [hop, Option.some.injEq] at hop'
  exact hop' ▸ Nat.lt_succ_self _

/-- What comes after an expression in brackets ends it. -/
theorem Closes.endsExpr {s : Symbol} (h : Closes s) : EndsExpr (.symbol s :: rest) := by
  rcases h with rfl | rfl | rfl | rfl | rfl <;>
    exact ⟨⟨by simp [EndsName], by simp, by simp⟩, by rintro k ks op level ⟨⟩ ⟨⟩, by simp⟩

/-- An expression ends where the tokens do. -/
theorem endsExpr_nil : EndsExpr [] :=
  ⟨⟨by simp [EndsName], by simp, by simp⟩, by rintro k ks op level ⟨⟩, by simp⟩

/-- An expression ends before the end mark. -/
theorem endsExpr_eof : EndsExpr (.eof :: rest) :=
  ⟨⟨by simp [EndsName], by simp, by simp⟩, by rintro k ks op level ⟨⟩ ⟨⟩, by simp⟩

/-- A question mark ends a chain of operators. -/
theorem endsChain_question : EndsChain least (.symbol .question :: rest) := by
  rintro k ks op level ⟨⟩ ⟨⟩

/-- A question mark ends a chain of members. -/
theorem endsMember_question : EndsMember (.symbol .question :: rest) :=
  ⟨by simp [EndsName], by simp, by simp⟩

/-- Whether a chain has ended is the same for every looser one. -/
theorem EndsChain.mono (h : EndsChain least rest) (hle : least ≤ level) : EndsChain level rest :=
  fun k ks op level' hk hi => Nat.lt_of_lt_of_le (h k ks op level' hk hi) hle

/-- The tokens that an expression may start with. -/
def Starts : Kind → Prop
  | .ident _ | .literal _ => True
  | .symbol s => s = .not ∨ s = .minus ∨ s = .leftParen ∨ s = .leftBracket ∨ s = .leftBrace
  | _ => False

/-- No expression starts with a symbol that comes after one. -/
theorem Starts.ne_closes {s : Symbol} (h : Starts k) (hs : Closes s) : k ≠ .symbol s := by
  rintro rfl
  rcases hs with rfl | rfl | rfl | rfl | rfl <;> simp [Starts] at h

/-- The first token of a derivation. -/
theorem Derives.head {p : Phrase} (h : Derives m p ks) :
    match p with
    | .expr _ _ => ∃ k ks', ks = k :: ks' ∧ Starts k
    | _ => True := by
  induction h with
  | tighter _ _ ih => exact ih
  | conditional _ _ _ ih _ _ | binary _ _ _ ih _ | select _ ih | index _ _ ih _
  | invoke _ _ _ ih _ =>
    obtain ⟨k, ks', rfl, hk⟩ := ih
    exact ⟨k, _, rfl, hk⟩
  | noItems | lastItem | moreItems | noEntries | lastEntry | moreEntries => trivial
  | _ => exact ⟨_, _, rfl, by simp [Starts]⟩

end Grammar

namespace Parser

open Grammar

variable {α β γ : Type} {m : Bool} {c c' : Cursor} {e : Expr Unit} {ks rest : List Kind}

/-! ## Runs that end well or at the nesting limit -/

/-- A run that ends well if a condition holds, and otherwise at the nesting limit. -/
def Decides (fits : Prop) (r : EStateM.Result (Option SyntaxError) Cursor α)
    (post : α → Cursor → Prop) : Prop :=
  match r with
  | .ok a c => fits ∧ post a c
  | .error e _ => ¬fits ∧ ∃ err, e = some err ∧ err.IsNestingLimit

variable {fits fits' : Prop}

/-- One condition is as good as another that is equivalent to it. -/
theorem Decides.congr {r : EStateM.Result (Option SyntaxError) Cursor α}
    {post : α → Cursor → Prop} (h : Decides fits r post) (hiff : fits ↔ fits') :
    Decides fits' r post := propext hiff ▸ h

/-- The nesting limit decides a run whose condition fails. -/
theorem decides_tooDeep (hfits : ¬fits) (c c' : Cursor) (post : α → Cursor → Prop) :
    Decides fits (.error (some c.tooDeepError) c') post :=
  ⟨hfits, _, rfl, c.tooDeepError_isNestingLimit⟩

/-- Two runs in a row end well under both conditions. -/
theorem Decides.bind {p : Parser α} {f : α → Parser β} {post : α → Cursor → Prop}
    {post' : β → Cursor → Prop} (h : Decides fits (p c) post)
    (hf : ∀ a c', post a c' → Decides fits' (f a c') post') :
    Decides (fits ∧ fits') ((p >>= f) c) post' := by
  rw [run_bind]
  cases hp : p c with
  | ok a c' =>
    rw [hp] at h
    exact (hf a c' h.2).congr (and_iff_right h.1).symm
  | error e c' =>
    rw [hp] at h
    exact ⟨fun hand => h.1 hand.1, h.2⟩

/-- A run after which nothing is in the way. -/
theorem Decides.andThen {p : Parser α} {f : α → Parser β} {post : α → Cursor → Prop}
    {post' : β → Cursor → Prop} (h : Decides fits (p c) post)
    (hf : ∀ a c', post a c' → Decides True (f a c') post') : Decides fits ((p >>= f) c) post' :=
  (h.bind hf).congr (and_iff_left trivial)

/-- A cursor at the rest of the tokens. -/
structure At (m : Bool) (c : Cursor) (ks : List Kind) : Prop where
  kinds : c.kinds = ks
  macrosOn : c.macrosOn = m

/-- A token is consumed. -/
theorem At.skip {k : Kind} (h : At m c (k :: rest)) : At m c.skip rest :=
  ⟨Cursor.kinds_skip h.kinds, by rw [(Cursor.reads_skip h.kinds).macrosOn, h.macrosOn]⟩

/-- A parser that reads no tokens leaves the cursor at the same ones. -/
theorem At.stay (h : At m c rest) (hr : c.Reads [] c') : At m c' rest :=
  ⟨hr.rest_eq h.kinds, by rw [hr.macrosOn, h.macrosOn]⟩

/-- A tree was read, and the cursor is at the rest. -/
def Read (m : Bool) (e : Expr Unit) (rest : List Kind) (t : Tree) (c : Cursor) : Prop :=
  t.bare = e ∧ At m c rest

/-! ## Items -/

/-- A parser of items reads each item that ends where an expression ends, if the item fits, and each
starts as an expression does. The two views are what is made of what is read and of an item. -/
structure ReadsItems (m : Bool) (item : Parser α) (view : α → β) (isItem : γ → List Kind → Prop)
    (shape : γ → β) (fits : γ → Prop) : Prop where
  read : ∀ {g ks rest c}, isItem g ks → At m c (ks ++ rest) → EndsExpr rest →
    Decides (fits g) (item c) fun a c' => view a = shape g ∧ At m c' rest
  start : ∀ {g ks}, isItem g ks → ∃ k ks', ks = k :: ks' ∧ Starts k

variable {item : Parser α} {view : α → β} {isItem : γ → List Kind → Prop} {shape : γ → β}
  {fit : γ → Prop}

/-- Items are read up to their closing symbol if the bound is not below the number of tokens, and if
each of them fits. -/
theorem ReadsItems.itemsUpTo (hi : ReadsItems m item view isItem shape fit) {close : Symbol}
    (hclose : IsClosing close) (n : Nat) {gs : List γ} (hs : Separated isItem gs ks)
    (hc : At m c (ks ++ .symbol close :: rest)) (hn : c.kinds.length ≤ n) :
    Decides (∀ g ∈ gs, fit g) (itemsUpTo item close n c) fun as c' =>
      as.map view = gs.map shape ∧ At m c' rest := by
  induction n generalizing c gs ks with
  | zero =>
    -- The closing symbol is still to come, so there is a token.
    rw [hc.kinds] at hn
    simp at hn
  | succ n ih =>
    -- No item starts with the closing symbol, so where there is one the loop goes on.
    have hopen : ∀ {g ks₁ rest₁}, isItem g ks₁ → c.kinds = ks₁ ++ rest₁ →
        ¬ c.at? (.symbol close) = true := by
      intro g ks₁ rest₁ hg hk hat
      obtain ⟨k, ks', rfl, hstart⟩ := hi.start hg
      obtain ⟨ks'', hk'⟩ := (c.at?_symbol close).1 hat
      rw [hk', List.cons_append, List.cons.injEq] at hk
      exact hstart.ne_closes hclose.closes hk.1.symm
    rw [Parser.itemsUpTo, bind_of_ok (run_get c)]
    cases hs with
    | nil =>
      rw [if_pos ((c.at?_symbol close).2 ⟨rest, hc.kinds⟩),
        bind_of_ok (run_expect_of_eq hc.kinds)]
      exact ⟨List.forall_mem_nil _, rfl, hc.skip⟩
    | @last g ks hg =>
      rw [if_neg (hopen hg hc.kinds)]
      refine ((hi.read hg hc hclose.closes.endsExpr).andThen fun a c₁ h₁ => ?_).congr
        List.forall_mem_singleton.symm
      have hcomma : ∀ ks, c₁.kinds ≠ .symbol .comma :: ks := by
        rw [h₁.2.kinds]
        simp [hclose.ne_comma]
      rw [bind_of_ok (run_skip_of_ne hcomma), if_neg Bool.false_ne_true,
        bind_of_ok (run_expect_of_eq h₁.2.kinds)]
      exact ⟨trivial, by rw [List.map_singleton, List.map_singleton, h₁.1], h₁.2.skip⟩
    | @more g gs' ks₁ ks₂ hg hs' =>
      rw [List.append_assoc, List.cons_append] at hc
      rw [if_neg (hopen hg hc.kinds)]
      have hend : EndsExpr (.symbol .comma :: (ks₂ ++ .symbol close :: rest)) :=
        Closes.endsExpr (by simp [Closes])
      refine ((hi.read hg hc hend).bind fun a c₁ h₁ => ?_).congr List.forall_mem_cons.symm
      rw [bind_of_ok (run_skip_of_eq h₁.2.kinds), if_pos rfl]
      -- The item and the comma are gone, so the tokens left fall by as much as the bound.
      have hlen : c₁.skip.kinds.length ≤ n := by
        rw [h₁.2.skip.kinds]
        rw [hc.kinds] at hn
        simp only [List.length_append, List.length_cons] at hn ⊢
        omega
      refine (ih hs' h₁.2.skip hlen).andThen fun as c₂ h₂ => ⟨trivial, ?_, h₂.2⟩
      rw [List.map_cons, List.map_cons, h₁.1, h₂.1]

/-- A list of items is read up to its closing symbol, if each of its items fits. -/
theorem ReadsItems.items (hi : ReadsItems m item view isItem shape fit) {close : Symbol}
    (hclose : IsClosing close) {gs : List γ} (hs : Separated isItem gs ks)
    (hc : At m c (ks ++ .symbol close :: rest)) :
    Decides (∀ g ∈ gs, fit g) (items item close c) fun as c' =>
      as.map view = gs.map shape ∧ At m c' rest := by
  rw [Parser.items, bind_of_ok (run_get c)]
  exact hi.itemsUpTo hclose _ hs hc (by simp [Cursor.kinds])

/-! ## What each level of the grammar says of the parser -/

/-- Tokens of a whole expression are read with as many levels as they take. -/
def ReadsExpr (m : Bool) (e : Expr Unit) (ks : List Kind) (levels : Nat) : Prop :=
  ∀ ⦃budget c rest⦄, At m c (ks ++ rest) → EndsExpr rest →
    Decides (levels ≤ budget) ((level budget).expr c) (Read m e rest)

/-- Tokens of an operator with operands, at least as tight as a level, bring a chain to where its
tree is what was read so far and its links are off the budget. -/
def ReadsBinary (m : Bool) (n : Nat) (e : Expr Unit) (ks : List Kind) (nesting : Nesting) : Prop :=
  ∀ ⦃budget c rest least post⦄ ⦃fits : Prop⦄, At m c (ks ++ rest) → least ≤ n → EndsMember rest →
    EndsChain (n + 1) rest →
    (∀ ⦃budget' t c'⦄, budget = budget' + nesting.links → Read m e rest t c' →
      Decides fits ((level budget').binaryChain least t c') post) →
    Decides (nesting.levels ≤ budget ∧ fits) ((level budget).binary least c) post

/-- Tokens of an operand are read. -/
def ReadsUnary (m : Bool) (e : Expr Unit) (ks : List Kind) (levels : Nat) : Prop :=
  ∀ ⦃budget c rest⦄, At m c (ks ++ rest) → EndsMember rest →
    Decides (levels ≤ budget) ((level budget).unary c) (Read m e rest)

/-- Tokens of a member bring a chain to where its tree is what was read so far and its links are off
the budget. They start with no operator. -/
def ReadsMember (m : Bool) (e : Expr Unit) (ks : List Kind) (nesting : Nesting) : Prop :=
  (∃ k ks', ks = k :: ks' ∧ UnaryOp.ofKind? k = none) ∧
  ∀ ⦃budget c rest post⦄ ⦃fits : Prop⦄, At m c (ks ++ rest) → EndsName rest →
    (∀ ⦃budget' t c'⦄, budget = budget' + nesting.links → Read m e rest t c' →
      Decides fits ((level budget').memberChain t c') post) →
    Decides (nesting.levels ≤ budget ∧ fits)
      ((Level.primary (level budget).expr >>= (level budget).memberChain) c) post

/-- Tokens of what stands alone are read. They start with no operator. -/
def ReadsPrimary (m : Bool) (e : Expr Unit) (ks : List Kind) (levels : Nat) : Prop :=
  (∃ k ks', ks = k :: ks' ∧ UnaryOp.ofKind? k = none) ∧
  ∀ ⦃budget c rest⦄, At m c (ks ++ rest) → EndsName rest →
    Decides (levels ≤ budget) (Level.primary (level budget).expr c) (Read m e rest)

/-- What the tokens of an expression of a level say of the parser. -/
def ReadsLevel (m : Bool) (n : Nat) (e : Expr Unit) (ks : List Kind) (nesting : Nesting) : Prop :=
  if n = Binding.conditional then ReadsExpr m e ks nesting.levels
  else if n = Binding.unary then nesting.links = 0 ∧ ReadsUnary m e ks nesting.levels
  else if n = Binding.member then ReadsMember m e ks nesting
  else if n = Grammar.primary then nesting.links = 0 ∧ ReadsPrimary m e ks nesting.levels
  else n ≤ Binding.multiplicative ∧ ReadsBinary m n e ks nesting

/-! ## Each level from the next -/

variable {budget least n : Nat} {nesting : Nesting} {t : Tree}

/-- A chain of members stops before what ends it. -/
theorem level_memberChain_stop (h : EndsMember c.kinds) :
    (level budget).memberChain t c = .ok t c := by
  have hk : ∀ {s}, (∀ ks, c.kinds ≠ .symbol s :: ks) → c.kind ≠ .symbol s := by
    intro s hs hk
    obtain ⟨ks, hks⟩ := Cursor.kinds_of_kind (c := c) (by simp [hk])
    exact hs ks (hk ▸ hks)
  cases budget <;> exact Level.run_memberChain_stop (hk h.dot) (hk h.bracket)

/-- A chain of operators stops before what ends it. -/
theorem level_binaryChain_stop (h : EndsChain least c.kinds) :
    (level budget).binaryChain least t c = .ok t c := by
  cases hop : BinaryOp.ofKind? c.kind with
  | none => cases budget <;> exact Level.run_binaryChain_stop hop
  | some op =>
    obtain ⟨k, ks, hk, hi⟩ := Level.kinds_of_operator hop
    cases budget <;> exact Level.run_binaryChain_loose hop (h k ks op _ hk hi)

/-- Without an operator an operand is a chain of members. -/
theorem level_unary_member (h : UnaryOp.ofKind? c.kind = none) :
    (level budget).unary c =
      (Level.primary (level budget).expr >>= (level budget).memberChain) c := by
  cases budget <;> exact Level.run_unary_member h

/-- What stands alone is a member without links. -/
theorem ReadsPrimary.toMember (hlinks : nesting.links = 0)
    (h : ReadsPrimary m e ks nesting.levels) : ReadsMember m e ks nesting :=
  ⟨h.1, fun _ _ _ _ _ hc hn hpost =>
    (h.2 hc hn).bind fun _ _ hr => hpost (by rw [hlinks, Nat.add_zero]) hr⟩

/-- A chain of members ends where it is an operand, and its links are given back. -/
theorem ReadsMember.toUnary (h : ReadsMember m e ks nesting) :
    ReadsUnary m e ks nesting.levels := by
  intro budget c rest hc hend
  obtain ⟨k, ks', rfl, hk⟩ := h.1
  have hkind : c.kind = k := Cursor.kind_of_kinds hc.kinds
  rw [level_unary_member (by rw [hkind, hk])]
  refine (h.2 hc hend.name fun _ _ _ _ hr => ?_).congr (and_iff_left trivial)
  rw [level_memberChain_stop (by rw [hr.2.kinds]; exact hend)]
  exact ⟨trivial, hr⟩

/-- An operand is a chain of operators without links. -/
theorem ReadsUnary.toBinary (hlinks : nesting.links = 0) (h : ReadsUnary m e ks nesting.levels) :
    ReadsBinary m n e ks nesting := by
  intro budget c rest least post fits hc _ hend _ hpost
  exact (h hc hend).bind fun t c' hr => hpost (by rw [hlinks, Nat.add_zero]) hr

/-- A chain of tighter operators is one of looser operators. -/
theorem ReadsBinary.loosen (h : ReadsBinary m (n + 1) e ks nesting) :
    ReadsBinary m n e ks nesting := by
  intro budget c rest least post fits hc hle hend hchain hpost
  exact h hc (Nat.le_succ_of_le hle) hend (hchain.mono (Nat.le_succ _)) hpost

/-- A chain that no operator continues is read whole. -/
theorem ReadsBinary.read (h : ReadsBinary m n e ks nesting) (hc : At m c (ks ++ rest))
    (hle : least ≤ n) (hend : EndsMember rest) (hchain : EndsChain least rest) :
    Decides (nesting.levels ≤ budget) ((level budget).binary least c) (Read m e rest) := by
  refine (h hc hle hend (hchain.mono (Nat.le_succ_of_le hle)) fun _ _ _ _ hr => ?_).congr
    (and_iff_left trivial)
  rw [level_binaryChain_stop (by rw [hr.2.kinds]; exact hchain)]
  exact ⟨trivial, hr⟩

/-- A chain of operators is a whole expression, which takes a level. -/
theorem ReadsBinary.toExpr (h : ReadsBinary m Binding.or e ks nesting) :
    ReadsExpr m e ks (nesting.levels + 1) := by
  intro budget c rest hc hend
  cases budget with
  | zero => exact decides_tooDeep (Nat.not_succ_le_zero _) _ _ _
  | succ budget =>
    refine ((h.read hc (Nat.le_refl _) hend.member hend.chain).andThen fun t c₁ h₁ => ?_).congr
      Nat.succ_le_succ_iff.symm
    rw [bind_of_ok (run_skip_of_ne (by rw [h₁.2.kinds]; exact hend.question)),
      if_neg Bool.false_ne_true]
    exact ⟨trivial, h₁⟩

/-- The levels of the operators with two operands. -/
theorem readsLevel_iff_binary (hor : Binding.or ≤ n) (hle : n ≤ Binding.multiplicative) :
    ReadsLevel m n e ks nesting ↔ ReadsBinary m n e ks nesting := by
  have h1 : n ≠ Binding.conditional := fun h => by subst h; exact absurd hor (by decide)
  have h7 : ∀ k, Binding.multiplicative < k → n ≠ k := fun k hk =>
    Nat.ne_of_lt (Nat.lt_of_le_of_lt hle hk)
  unfold ReadsLevel
  rw [if_neg h1, if_neg (h7 _ (by decide)), if_neg (h7 _ (by decide)), if_neg (h7 _ (by decide))]
  exact and_iff_right hle

/-- An operand of an operator, at least as tight as its level. -/
theorem ReadsLevel.binary (h : ReadsLevel m n e ks nesting) (hor : Binding.or ≤ n)
    (hle : n ≤ Binding.unary) : ReadsBinary m n e ks nesting := by
  rcases Nat.lt_or_eq_of_le hle with hlt | rfl
  · exact (readsLevel_iff_binary hor (Nat.le_of_lt_succ hlt)).1 h
  · exact ReadsUnary.toBinary h.1 h.2

/-- What a level says of the parser, the next looser one says as well. -/
theorem ReadsLevel.tighter (h : ReadsLevel m (n + 1) e ks nesting)
    (hn : Binding.conditional ≤ n) : ReadsLevel m n e ks (nesting.loosen n) := by
  -- The levels are few, so each of them is a case: the whole expression, the operators, the sign,
  -- the chain and what stands alone.
  match n with
  | 0 => exact absurd hn (by decide)
  | 1 => exact ReadsBinary.toExpr (h.binary (by decide) (by decide))
  | 2 | 3 | 4 | 5 | 6 =>
    exact (readsLevel_iff_binary (by decide) (by decide)).2
      (ReadsBinary.loosen (h.binary (by decide) (by decide)))
  | 7 =>
    have hmember : ReadsMember m e ks nesting := h
    exact ⟨rfl, hmember.toUnary⟩
  | 8 => exact ReadsPrimary.toMember h.1 h.2
  | n + 9 =>
    unfold ReadsLevel at h
    rw [if_neg (by unfold Binding.conditional; omega), if_neg (by unfold Binding.unary; omega),
      if_neg (by unfold Binding.member; omega),
      if_neg (by unfold Grammar.primary Binding.member; omega)] at h
    have hle := h.1
    unfold Binding.multiplicative at hle
    omega

/-! ## Each construct from its parts -/

variable {e₁ e₂ e₃ : Expr Unit} {ks₁ ks₂ ks₃ : List Kind} {n₁ n₂ n₃ : Nesting} {levels : Nat}
  {name : String}

/-- A conditional takes one level for all its parts. -/
theorem ReadsExpr.conditional (h₁ : ReadsBinary m Binding.or e₁ ks₁ n₁)
    (h₂ : ReadsBinary m Binding.or e₂ ks₂ n₂) (h₃ : ReadsExpr m e₃ ks₃ levels) :
    ReadsExpr m (.call () Operator.conditional [e₁, e₂, e₃])
      (ks₁ ++ .symbol .question :: (ks₂ ++ .symbol .colon :: ks₃))
      (max n₁.levels (max n₂.levels levels) + 1) := by
  intro budget c rest hc hend
  simp only [List.append_assoc, List.cons_append] at hc
  cases budget with
  | zero => exact decides_tooDeep (Nat.not_succ_le_zero _) _ _ _
  | succ budget =>
    -- The level of the conditional is open while its parts are read.
    have hfits : (n₁.levels ≤ budget ∧ n₂.levels ≤ budget ∧ levels ≤ budget) ↔
        max n₁.levels (max n₂.levels levels) + 1 ≤ budget + 1 := by omega
    refine Decides.congr ?_ hfits
    refine (h₁.read hc (Nat.le_refl _) endsMember_question endsChain_question).bind
      fun condition c₁ hr₁ => ?_
    rw [bind_of_ok (run_skip_of_eq hr₁.2.kinds), if_pos rfl]
    have hcolon : EndsExpr (.symbol .colon :: (ks₃ ++ rest)) := Closes.endsExpr (by simp [Closes])
    refine (h₂.read hr₁.2.skip (Nat.le_refl _) hcolon.member hcolon.chain).bind
      fun yes c₂ hr₂ => ?_
    rw [bind_of_ok (run_expect_of_eq hr₂.2.kinds)]
    refine (h₃ hr₂.2.skip hend).andThen fun no c₃ hr₃ => ?_
    obtain ⟨mark, c₄, hn, hr₄⟩ := exists_run_node
      (fun m => .call m Operator.conditional [condition, yes, no])
      (condition.mark.span.cover no.mark.span) c₃
    rw [hn]
    refine ⟨trivial, ?_, hr₃.2.stay hr₄⟩
    rw [Expr.bare_call, List.map_cons, List.map_cons, List.map_singleton, hr₁.1, hr₂.1, hr₃.1]

/-- An operator takes the chain before it, and its right operand is read below all the links. -/
theorem ReadsBinary.operator {k : Kind} {op : BinaryOp} (hi : Infix n k op)
    (h₁ : ReadsBinary m n e₁ ks₁ n₁) (h₂ : ReadsBinary m (n + 1) e₂ ks₂ n₂) :
    ReadsBinary m n (.call () op.function [e₁, e₂]) (ks₁ ++ k :: ks₂) (n₁.link n₂.levels) := by
  intro budget c rest least post fits hc hle hend hchain hpost
  simp only [List.append_assoc, List.cons_append] at hc
  obtain ⟨hop, rfl⟩ := infix_iff.1 hi
  have hfits : (n₁.levels ≤ budget ∧ n₁.links + 1 + n₂.levels ≤ budget ∧ fits) ↔
      ((n₁.link n₂.levels).levels ≤ budget ∧ fits) := by
    rw [← and_assoc, Nesting.link_levels, Nat.max_le]
  refine Decides.congr ?_ hfits
  -- The left operand brings the same chain to this operator, with the budget that is left.
  refine h₁ hc hle hi.endsMember hi.endsChain fun budget₁ left c₁ hbudget hr₁ => ?_
  have hop₁ : BinaryOp.ofKind? c₁.kind = some op := by
    rw [Cursor.kind_of_kinds hr₁.2.kinds, hop]
  cases budget₁ with
  | zero =>
    rw [level, Level.run_binaryChain_none hop₁ hle]
    exact decides_tooDeep (fun hfit => absurd hfit.1 (by omega)) _ _ _
  | succ budget₁ =>
    have hright : (n₂.levels ≤ budget₁ ∧ fits) ↔ (n₁.links + 1 + n₂.levels ≤ budget ∧ fits) :=
      and_congr_left fun _ => by omega
    rw [level, Level.run_binaryChain_link hop₁ hle]
    -- The right operand is a chain of its own, which ends where this derivation does.
    refine ((h₂.read hr₁.2.skip (Nat.le_refl _) hend hchain).bind
      fun right c₂ hr₂ => ?_).congr hright
    obtain ⟨mark, c₃, hn, hr₃⟩ := exists_run_node
      (fun m => .call m op.function [left, right]) (left.mark.span.cover right.mark.span) c₂
    rw [bind_of_ok hn]
    refine hpost (by rw [Nesting.link_links]; omega) ⟨?_, hr₂.2.stay hr₃⟩
    rw [Expr.bare_call, List.map_cons, List.map_singleton, hr₁.1, hr₂.1]

/-- An operand after a sign. -/
theorem ReadsUnary.operator {k : Kind} (op : UnaryOp) (hop : UnaryOp.ofKind? k = some op)
    (hnode : ∀ t span c, ∃ t' c', unaryNode op t span c = .ok t' c' ∧
      (t.bare = e₁ → t'.bare = e₂) ∧ c.Reads [] c')
    (h : ReadsUnary m e₁ ks levels) : ReadsUnary m e₂ (k :: ks) (levels + 1) := by
  intro budget c rest hc hend
  have hop' : UnaryOp.ofKind? c.kind = some op := by rw [Cursor.kind_of_kinds hc.kinds, hop]
  cases budget with
  | zero =>
    rw [level, Level.run_unary_none hop']
    exact decides_tooDeep (Nat.not_succ_le_zero _) _ _ _
  | succ budget =>
    rw [level, Level.run_unary_operator hop']
    -- The level of the sign is open while the operand is read.
    refine ((h hc.skip hend).andThen fun t c₁ hr₁ => ?_).congr Nat.succ_le_succ_iff.symm
    obtain ⟨t', c₂, ht, he, hr₂⟩ := hnode t (c.span.cover t.mark.span) c₁
    rw [ht]
    exact ⟨trivial, he hr₁.1, hr₁.2.stay hr₂⟩

/-- A negation takes a level for its operand. -/
theorem ReadsUnary.not (h : ReadsUnary m e ks levels) :
    ReadsUnary m (.call () "!_" [e]) (.symbol .not :: ks) (levels + 1) := by
  refine ReadsUnary.operator .not rfl (fun t span c => ?_) h
  obtain ⟨t', c', ht, hb, hr⟩ := run_not t span c
  exact ⟨t', c', ht, fun he => by rw [hb, he], hr⟩

/-- A minus takes a level for its operand, whether or not a constant is folded. -/
theorem ReadsUnary.negate (h : ReadsUnary m e ks levels) :
    ReadsUnary m (negation e) (.symbol .minus :: ks) (levels + 1) := by
  refine ReadsUnary.operator .negate rfl (fun t span c => ?_) h
  obtain ⟨t', c', ht, hb, hr⟩ := run_negate t span c
  exact ⟨t', c', ht, fun he => by rw [hb, he], hr⟩

/-- A link of a chain of members: what it reads first, then the rest of the chain. -/
theorem ReadsMember.link {k : Kind} (p : Level → Tree → Parser Tree)
    (hk : k = .symbol .dot ∨ k = .symbol .leftBracket)
    (hrun : ∀ {l target c}, c.kind = k → (Level.ofBelow (some l)).memberChain target c =
      (p l target >>= l.memberChain) c.skip)
    (h : ReadsMember m e₁ ks₁ n₁)
    (hlink : ∀ budget target c rest, target.bare = e₁ → At m c (ks₂ ++ rest) → EndsName rest →
      Decides (levels ≤ budget) (p (level budget) target c) (Read m e₂ rest)) :
    ReadsMember m e₂ (ks₁ ++ k :: ks₂) (n₁.link levels) := by
  obtain ⟨⟨k₀, ks₀, rfl, hk₀⟩, h⟩ := h
  refine ⟨⟨k₀, _, rfl, hk₀⟩, fun budget c rest post fits hc hend hpost => ?_⟩
  simp only [List.append_assoc, List.cons_append] at hc
  have hfits : (n₁.levels ≤ budget ∧ n₁.links + 1 + levels ≤ budget ∧ fits) ↔
      ((n₁.link levels).levels ≤ budget ∧ fits) := by
    rw [← and_assoc, Nesting.link_levels, Nat.max_le]
  refine Decides.congr ?_ hfits
  -- A point or a bracket makes no call of the name before it.
  have hname : EndsName (k :: (ks₂ ++ rest)) := by rcases hk with rfl | rfl <;> simp [EndsName]
  refine h (by simpa using hc) hname fun budget₁ target c₁ hbudget hr₁ => ?_
  have hkind : c₁.kind = k := Cursor.kind_of_kinds hr₁.2.kinds
  cases budget₁ with
  | zero =>
    rw [level, Level.run_memberChain_none (hkind ▸ hk)]
    exact decides_tooDeep (fun hfit => absurd hfit.1 (by omega)) _ _ _
  | succ budget₁ =>
    have hpart : (levels ≤ budget₁ ∧ fits) ↔ (n₁.links + 1 + levels ≤ budget ∧ fits) :=
      and_congr_left fun _ => by omega
    rw [level, hrun hkind]
    refine ((hlink budget₁ target c₁.skip rest hr₁.1 hr₁.2.skip hend).bind
      fun t c₂ hr₂ => hpost ?_ hr₂).congr hpart
    rw [Nesting.link_links]
    omega

/-- A selection is a link without a part below it. -/
theorem ReadsMember.select (h : ReadsMember m e ks nesting) :
    ReadsMember m (.select () e name false) (ks ++ [.symbol .dot, .ident name])
      (nesting.link 0) := by
  refine ReadsMember.link Level.field (.inl rfl) Level.run_memberChain_dot h ?_
  intro budget target c rest ht hc hend
  obtain ⟨span, hrun⟩ := Level.run_field (level budget) target hc.kinds
  rw [hrun, bind_of_ok (run_skip_of_ne (by rw [hc.skip.kinds]; exact hend)),
    if_neg Bool.false_ne_true]
  obtain ⟨mark, c₁, hn, hr₁⟩ := exists_run_node (fun m => .select m target name false)
    (target.mark.span.cover span) c.skip
  rw [hn]
  exact ⟨Nat.zero_le _, by rw [Expr.bare_select, ht], hc.skip.stay hr₁⟩

/-- An index is a link with a whole expression below it. -/
theorem ReadsMember.index (h₁ : ReadsMember m e₁ ks₁ n₁) (h₂ : ReadsExpr m e₂ ks₂ levels) :
    ReadsMember m (.call () Operator.index [e₁, e₂])
      (ks₁ ++ .symbol .leftBracket :: (ks₂ ++ [.symbol .rightBracket])) (n₁.link levels) := by
  refine ReadsMember.link Level.index (.inr rfl) Level.run_memberChain_bracket h₁ ?_
  intro budget target c rest ht hc _
  rw [List.append_assoc] at hc
  refine (h₂ hc (Closes.endsExpr (by simp [Closes]))).andThen fun i c₁ hr₁ => ?_
  rw [bind_of_ok (run_expect_of_eq hr₁.2.kinds), bind_of_ok (run_get _)]
  obtain ⟨mark, c₂, hn, hr₂⟩ := exists_run_node (fun m => .call m Operator.index [target, i])
    (target.mark.span.cover c₁.skip.previous) c₁.skip
  rw [hn]
  refine ⟨trivial, ?_, hr₁.2.skip.stay hr₂⟩
  rw [Expr.bare_call, List.map_cons, List.map_singleton, ht, hr₁.1]

/-! ### Items of expressions and entries -/

/-- What an item says of the parser, an expression with the levels that it takes. -/
abbrev ReadsItem (m : Bool) (g : Expr Unit × Nat) (ks : List Kind) : Prop :=
  IsExpr m g.1 ks ∧ ReadsExpr m g.1 ks g.2

/-- Tokens of expressions between commas, where a budget that holds for all of them holds for each.
-/
def ReadsList (m : Bool) (es : List (Expr Unit)) (ks : List Kind) (levels : Nat) : Prop :=
  ∃ gs : List (Expr Unit × Nat), gs.map Prod.fst = es ∧ Separated (ReadsItem m) gs ks ∧
    ∀ budget, levels ≤ budget ↔ ∀ g ∈ gs, g.2 ≤ budget

/-- Tokens of keys and values between commas. -/
def ReadsEntries (m : Bool) (es : List (Expr Unit × Expr Unit)) (ks : List Kind) (levels : Nat) :
    Prop :=
  ∃ gs : List ((Expr Unit × Nat) × (Expr Unit × Nat)),
    gs.map (fun g => (g.1.1, g.2.1)) = es ∧ Separated (IsEntry (ReadsItem m)) gs ks ∧
      ∀ budget, levels ≤ budget ↔ ∀ g ∈ gs, g.1.2 ≤ budget ∧ g.2.2 ≤ budget

/-- Whole expressions are read as the items of a list. -/
theorem readsItems_expr (m : Bool) (budget : Nat) :
    ReadsItems m (level budget).expr Expr.bare (ReadsItem m) Prod.fst fun g => g.2 ≤ budget where
  read hi hc hend := hi.2 hc hend
  start hi := hi.1.head

/-- Keys and values are read as the items of a map. -/
theorem readsItems_entry (m : Bool) (budget : Nat) :
    ReadsItems m (do
        let key ← (level budget).expr
        expect .colon
        let value ← (level budget).expr
        return (key, value))
      (fun e => (e.1.bare, e.2.bare)) (IsEntry (ReadsItem m)) (fun g => (g.1.1, g.2.1))
      fun g => g.1.2 ≤ budget ∧ g.2.2 ≤ budget where
  read := by
    rintro ⟨k, v⟩ ks rest c ⟨ks₁, ks₂, rfl, hk, hv⟩ hc hend
    simp only [List.append_assoc, List.cons_append] at hc
    refine (hk.2 hc (Closes.endsExpr (by simp [Closes]))).bind fun key c₁ hr₁ => ?_
    rw [bind_of_ok (run_expect_of_eq hr₁.2.kinds)]
    -- The colon ends the key, and a comma or the bracket the value.
    refine (hv.2 hr₁.2.skip hend).andThen fun value c₂ hr₂ => ?_
    exact ⟨trivial, by rw [hr₁.1, hr₂.1], hr₂.2⟩
  start := by
    rintro b ks ⟨ks₁, ks₂, rfl, hk, hv⟩
    obtain ⟨k, ks', rfl, hstart⟩ := hk.1.head
    exact ⟨k, _, rfl, hstart⟩

/-- A list of expressions is read if the budget holds for all of them. -/
theorem ReadsList.items {es : List (Expr Unit)} (h : ReadsList m es ks levels) {close : Symbol}
    (hclose : IsClosing close) (hc : At m c (ks ++ .symbol close :: rest)) :
    Decides (levels ≤ budget) (items (level budget).expr close c) fun ts c' =>
      ts.map Expr.bare = es ∧ At m c' rest := by
  obtain ⟨gs, rfl, hs, hlevels⟩ := h
  exact ((readsItems_expr m budget).items hclose hs hc).congr (hlevels budget).symm

/-- A call on a target is a link with its arguments below it. -/
theorem ReadsMember.invoke {args : List (Expr Unit)} (h₁ : ReadsMember m e₁ ks₁ n₁)
    (h₂ : ReadsList m args ks₂ levels) (he : receiverCall? m e₁ name args = some e₂) :
    ReadsMember m e₂ (ks₁ ++ .symbol .dot :: .ident name :: .symbol .leftParen
      :: (ks₂ ++ [.symbol .rightParen])) (n₁.link levels) := by
  refine ReadsMember.link Level.field (.inl rfl) Level.run_memberChain_dot h₁ ?_
  intro budget target c rest ht hc _
  simp only [List.append_assoc, List.cons_append] at hc
  obtain ⟨span, hrun⟩ := Level.run_field (level budget) target hc.kinds
  rw [hrun, bind_of_ok (run_skip_of_eq hc.skip.kinds), if_pos rfl]
  refine (h₂.items (.inl rfl) hc.skip.skip).andThen fun ts c₁ hr₁ => ?_
  rw [bind_of_ok (run_get c₁)]
  -- The grammar and the parser rewrite macros by the same rule.
  have hcall := run_receiverCall target name ts (target.mark.span.cover c₁.previous) c₁
  rw [hr₁.2.macrosOn, hr₁.1, ht, he] at hcall
  obtain ⟨t, c₂, hrun', hb, hr₂⟩ := hcall
  rw [hrun']
  exact ⟨trivial, hb, hr₁.2.stay hr₂⟩

/-- A constant stands alone. -/
theorem readsPrimary_literal {value : Literal} :
    ReadsPrimary m (.literal () value) [.literal value] 0 := by
  refine ⟨⟨_, _, rfl, rfl⟩, fun budget c rest hc _ => ?_⟩
  obtain ⟨span, hrun⟩ := Level.run_primary_literal (level budget).expr hc.kinds
  obtain ⟨mark, c₁, hn, hr₁⟩ := exists_run_node (fun m => .literal m value) span c.skip
  rw [hrun, hn]
  exact ⟨Nat.zero_le _, Expr.bare_literal _ _, hc.skip.stay hr₁⟩

/-- A name stands alone. -/
theorem readsPrimary_ident : ReadsPrimary m (.ident () name) [.ident name] 0 := by
  refine ⟨⟨_, _, rfl, rfl⟩, fun budget c rest hc hend => ?_⟩
  obtain ⟨span, hrun⟩ := Level.run_primary_ident (level budget).expr hc.kinds
  rw [hrun, bind_of_ok (run_skip_of_ne (by rw [hc.skip.kinds]; exact hend)),
    if_neg Bool.false_ne_true]
  obtain ⟨mark, c₁, hn, hr₁⟩ := exists_run_node (fun m => .ident m name) span c.skip
  rw [hn]
  exact ⟨Nat.zero_le _, Expr.bare_ident _ _, hc.skip.stay hr₁⟩

/-- A call stands alone, with its arguments at its own level. -/
theorem readsPrimary_call {args : List (Expr Unit)} (h : ReadsList m args ks levels)
    (he : globalCall? m name args = some e) :
    ReadsPrimary m e
      (.ident name :: .symbol .leftParen :: (ks ++ [.symbol .rightParen])) levels := by
  refine ⟨⟨_, _, rfl, rfl⟩, fun budget c rest hc _ => ?_⟩
  simp only [List.append_assoc, List.cons_append] at hc
  obtain ⟨span, hrun⟩ := Level.run_primary_ident (level budget).expr hc.kinds
  rw [hrun, bind_of_ok (run_skip_of_eq hc.skip.kinds), if_pos rfl]
  refine (h.items (.inl rfl) hc.skip.skip).andThen fun ts c₁ hr₁ => ?_
  rw [bind_of_ok (run_get c₁)]
  -- What the macros make of the call is what the grammar gives.
  have hcall := run_globalCall name ts (span.cover c₁.previous) c₁
  rw [hr₁.2.macrosOn, hr₁.1, he] at hcall
  obtain ⟨t, c₂, hrun', hb, hr₂⟩ := hcall
  rw [hrun']
  exact ⟨trivial, hb, hr₁.2.stay hr₂⟩

/-- An expression in parentheses stands alone, and its links are given back. -/
theorem readsPrimary_parens (h : ReadsExpr m e ks levels) :
    ReadsPrimary m e (.symbol .leftParen :: (ks ++ [.symbol .rightParen])) levels := by
  refine ⟨⟨_, _, rfl, rfl⟩, fun budget c rest hc _ => ?_⟩
  simp only [List.append_assoc, List.cons_append] at hc
  rw [Level.run_primary_parens _ hc.kinds]
  refine (h hc.skip (Closes.endsExpr (by simp [Closes]))).andThen fun t c₁ hr₁ => ?_
  rw [bind_of_ok (run_expect_of_eq hr₁.2.kinds)]
  exact ⟨trivial, hr₁.1, hr₁.2.skip⟩

/-- A list stands alone. -/
theorem readsPrimary_list {es : List (Expr Unit)} (h : ReadsList m es ks levels) :
    ReadsPrimary m (.list () es) (.symbol .leftBracket :: (ks ++ [.symbol .rightBracket]))
      levels := by
  refine ⟨⟨_, _, rfl, rfl⟩, fun budget c rest hc _ => ?_⟩
  simp only [List.append_assoc, List.cons_append] at hc
  obtain ⟨span, hrun⟩ := Level.run_primary_list (level budget).expr hc.kinds
  rw [hrun]
  refine (h.items (.inr (.inl rfl)) hc.skip).andThen fun ts c₁ hr₁ => ?_
  rw [bind_of_ok (run_get c₁)]
  obtain ⟨mark, c₂, hn, hr₂⟩ :=
    exists_run_node (fun m => .list m ts) (span.cover c₁.previous) c₁
  rw [hn]
  exact ⟨trivial, by rw [Expr.bare_list, hr₁.1], hr₁.2.stay hr₂⟩

/-- A map stands alone. -/
theorem readsPrimary_map {es : List (Expr Unit × Expr Unit)} (h : ReadsEntries m es ks levels) :
    ReadsPrimary m (.map () es) (.symbol .leftBrace :: (ks ++ [.symbol .rightBrace]))
      levels := by
  refine ⟨⟨_, _, rfl, rfl⟩, fun budget c rest hc _ => ?_⟩
  simp only [List.append_assoc, List.cons_append] at hc
  obtain ⟨span, hrun⟩ := Level.run_primary_map (level budget).expr hc.kinds
  -- The entries carry the levels that each of them takes.
  obtain ⟨gs, rfl, hs, hlevels⟩ := h
  rw [hrun]
  refine (((readsItems_entry m budget).items (.inr (.inr rfl)) hs hc.skip).congr
    (hlevels budget).symm).andThen fun ts c₁ hr₁ => ?_
  rw [bind_of_ok (run_get c₁)]
  obtain ⟨mark, c₂, hn, hr₂⟩ :=
    exists_run_node (fun m => .map m ts) (span.cover c₁.previous) c₁
  rw [hn]
  exact ⟨trivial, by rw [Expr.bare_map, Expr.bareEntries, hr₁.1], hr₁.2.stay hr₂⟩

/-! ## The whole grammar -/

/-- What the tokens of a phrase say of the parser. -/
def ReadsPhrase (m : Bool) : Phrase → List Kind → Nesting → Prop
  | .expr n e, ks, nesting => ReadsLevel m n e ks nesting
  | .items es, ks, nesting => ReadsList m es ks nesting.levels
  | .entries es, ks, nesting => ReadsEntries m es ks nesting.levels

/-- What is derived with a number of levels is read with it. -/
theorem takes_reads {p : Phrase} (h : Takes m p ks nesting) : ReadsPhrase m p ks nesting := by
  induction h with
  | tighter hn _ ih => exact ReadsLevel.tighter ih hn
  | conditional _ _ _ ih₁ ih₂ ih₃ =>
    exact ReadsExpr.conditional (ReadsLevel.binary ih₁ (by decide) (by decide))
      (ReadsLevel.binary ih₂ (by decide) (by decide)) ih₃
  | binary hi _ _ ih₁ ih₂ =>
    -- The right operand may be of the level above the products, which is that of single operands.
    have hor := hi.or_le
    have hle := hi.le_multiplicative
    exact (readsLevel_iff_binary hor hle).2 (ReadsBinary.operator hi
      ((readsLevel_iff_binary hor hle).1 ih₁)
      (ReadsLevel.binary ih₂ (Nat.le_succ_of_le hor) (Nat.succ_le_succ hle)))
  | not _ ih => exact ⟨rfl, ReadsUnary.not ih.2⟩
  | negate _ ih => exact ⟨rfl, ReadsUnary.negate ih.2⟩
  | select _ ih => exact ReadsMember.select ih
  | index _ _ ih₁ ih₂ => exact ReadsMember.index ih₁ ih₂
  | invoke _ _ he ih₁ ih₂ => exact ReadsMember.invoke ih₁ ih₂ he
  | literal => exact ⟨rfl, readsPrimary_literal⟩
  | ident => exact ⟨rfl, readsPrimary_ident⟩
  | call _ he ih => exact ⟨rfl, readsPrimary_call ih he⟩
  | parens _ ih => exact ⟨rfl, readsPrimary_parens ih⟩
  | list _ ih => exact ⟨rfl, readsPrimary_list ih⟩
  | map _ ih => exact ⟨rfl, readsPrimary_map ih⟩
  | noItems => exact ⟨[], rfl, .nil, fun _ => by simp⟩
  | @lastItem e ks n h ih =>
    refine ⟨[(e, n.levels)], rfl, .last ⟨h.derives, ih⟩, fun budget => ?_⟩
    rw [List.forall_mem_singleton, Nesting.closed_levels]
  | @moreItems e ks₁ n₁ es ks₂ n₂ h _ ih ihs =>
    obtain ⟨gs, rfl, hs, hlevels⟩ := ihs
    refine ⟨(e, n₁.levels) :: gs, rfl, .more ⟨h.derives, ih⟩ hs, fun budget => ?_⟩
    rw [List.forall_mem_cons, Nesting.closed_levels, Nat.max_le, hlevels]
  | noEntries => exact ⟨[], rfl, .nil, fun _ => by simp⟩
  | @lastEntry k ks₁ n₁ v ks₂ n₂ hk hv ihk ihv =>
    refine ⟨[((k, n₁.levels), (v, n₂.levels))], rfl,
      .last ⟨_, _, rfl, ⟨hk.derives, ihk⟩, ⟨hv.derives, ihv⟩⟩, fun budget => ?_⟩
    rw [List.forall_mem_singleton, Nesting.closed_levels, Nat.max_le]
  | @moreEntries k ks₁ n₁ v ks₂ n₂ es ks₃ n₃ hk hv _ ihk ihv ihs =>
    obtain ⟨gs, rfl, hs, hlevels⟩ := ihs
    refine ⟨((k, n₁.levels), (v, n₂.levels)) :: gs, rfl, ?_, fun budget => ?_⟩
    · -- The tokens of the first entry are taken together before the comma.
      rw [← List.cons_append, ← List.append_assoc]
      exact .more ⟨_, _, rfl, ⟨hk.derives, ihk⟩, ⟨hv.derives, ihv⟩⟩ hs
    · rw [List.forall_mem_cons, Nesting.closed_levels, Nat.max_le, Nat.max_le, hlevels]

/-- Where tokens derive a tree, an expression is read from them exactly if the budget is that of the
levels they take; otherwise nesting stops the parser. -/
theorem expr_decides {budget : Nat} (h : Takes m (.expr Binding.conditional e) ks nesting)
    (hc : At m c (ks ++ rest)) (hend : EndsExpr rest) :
    Decides (nesting.levels ≤ budget) (expr budget c) (Read m e rest) :=
  (takes_reads h : ReadsExpr m e ks nesting.levels) hc hend

end Parser

end CelShell
