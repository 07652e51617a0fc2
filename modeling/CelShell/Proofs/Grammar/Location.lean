import CelShell.Proofs.Expr.Location
import CelShell.Proofs.Grammar.Triple
import CelShell.Proofs.Token.Layout

/-!
# Where parsed trees stand

The parser keeps a row of trees behind its cursor (`Cursor.Reached`): the tokens that it has
consumed from an offset on, and the trees that it has made of them, stand one after the other in the
text. Every node that it makes covers trees of the row and tokens around them, so the node takes
their place in it. An error is reported at a token or at a tree, and both stand in the text. The
induction is on the budget, as each parser of a budget keeps this if those of the budget below do
(`Level.Places`).
-/

namespace CelShell

open Scan

/-- From an offset on a parser has consumed tokens, and made trees of some of them. -/
structure Cursor.Reached (text : List Char) (n : Nat) (ts : List Tree) (c : Cursor) : Prop where
  previous : c.previous.IsStretchOf text
  start_le : n ≤ c.previous.start.offset
  row : Row text n c.previous.stop.offset ts
  rest : Placed text c.previous.stop.offset c.rest

namespace Cursor

variable {text : List Char} {n : Nat} {ts us : List Tree} {t : Tree} {c c' : Cursor}

/-! ## Tokens -/

/-- The current token has a place, be it the end mark. -/
theorem isPlaceOf_span (h : Placed text n c.rest) : c.span.start.IsPlaceOf text := by
  unfold Cursor.span
  generalize c.rest = tokens at h
  cases h with
  | done _ hstop => exact hstop
  | token _ _ hstretch _ => exact hstretch.start

/-- A token that is not the end mark is consumed. -/
theorem reached_skip (h : Placed text n c.rest) (hk : c.kind ≠ .eof) :
    Reached text n [] c.skip ∧ c.skip.previous = c.span := by
  generalize hr : c.rest = tokens at h
  -- Only the end mark stands without characters of its own.
  cases h with
  | done => exact absurd (by rw [Cursor.kind, hr]) hk
  | @token _ t rest _ hle hstretch hrest =>
    have hprevious : c.skip.previous = t.span := by rw [skip, hr]
    have hskip : c.skip.rest = rest := by rw [skip, hr]
    refine ⟨⟨?_, ?_, .nil, ?_⟩, by rw [hprevious, Cursor.span, hr]⟩
    · rw [hprevious]
      exact hstretch
    · rw [hprevious]
      exact hle
    · rw [hprevious, hskip]
      exact hrest

namespace Reached

/-- What was consumed stands before what comes next. -/
theorem le_stop (h : Reached text n ts c) : n ≤ c.previous.stop.offset :=
  Nat.le_trans h.start_le (Nat.le_of_lt h.previous.lt)

/-- One row after the other. -/
theorem append (h : Reached text n ts c) (h' : Reached text c.previous.stop.offset us c') :
    Reached text n (ts ++ us) c' where
  previous := h'.previous
  start_le := Nat.le_trans h.le_stop h'.start_le
  row := h.row.append h'.row (Nat.le_refl _) h.le_stop h'.le_stop
  rest := h'.rest

/-- The number of the next node does not matter. -/
theorem numbered (h : Reached text n ts c) (id : Nat) :
    Reached text n ts { c with nextId := id } := ⟨h.previous, h.start_le, h.row, h.rest⟩

/-- Some of the trees stand in a row where all of them do. -/
theorem sublist (h : Reached text n ts c) (hus : us.Sublist ts) : Reached text n us c :=
  { h with row := h.row.sublist hus }

/-- What is reached from an offset is reached from an earlier one. -/
theorem mono {n' : Nat} (h : Reached text n ts c) (hle : n' ≤ n) : Reached text n' ts c :=
  { h with
    start_le := Nat.le_trans hle h.start_le
    row := h.row.mono hle (Nat.le_refl _) }

/-- The children of a tree take its place. -/
theorem children (h : Reached text n [t] c) : Reached text n t.children c :=
  { h with row := h.row.children.mono h.row.start_le h.row.le_stop }

/-! ## Nodes -/

/-- A node takes the place of its children. -/
theorem node (h : Reached text n t.children c) (hstretch : t.mark.span.IsStretchOf text)
    (hstart : n ≤ t.mark.span.start.offset)
    (hstop : t.mark.span.stop.offset ≤ c.previous.stop.offset)
    (hinside : ∀ u ∈ t.children, t.mark.span.start.offset ≤ u.mark.span.start.offset ∧
      u.mark.span.stop.offset ≤ t.mark.span.stop.offset) : Reached text n [t] c := by
  have hrow : Row text t.mark.span.start.offset t.mark.span.stop.offset t.children :=
    ⟨h.row.located, hinside, h.row.ordered⟩
  exact { h with
    row := (hrow.node hstretch (Nat.le_refl _) (Nat.le_refl _)).mono hstart hstop }

/-- A node at the token consumed last. -/
theorem leaf (h : Reached text n [] c) (hchildren : t.children = [])
    (hspan : t.mark.span = c.previous) : Reached text n [t] c := by
  refine node (hchildren ▸ h) ?_ ?_ ?_ (by simp [hchildren])
  all_goals rw [hspan]
  · exact h.previous
  · exact h.start_le

/-- A node from a token before its children up to the token consumed last. -/
theorem around {first : Span} (hfirst : first.IsStretchOf text) (hstart : n ≤ first.start.offset)
    (h : Reached text first.stop.offset t.children c)
    (hspan : t.mark.span = first.cover c.previous) : Reached text n [t] c := by
  have hle : n ≤ first.stop.offset := Nat.le_trans hstart (Nat.le_of_lt hfirst.lt)
  have hcover := Span.cover_eq hfirst h.previous h.start_le
  have hinside := (h.row.mono (Nat.le_of_lt hfirst.lt) (Nat.le_refl _)).between
  refine (h.mono hle).node ?_ ?_ ?_ ?_
  · rw [hspan]
    exact hfirst.cover h.previous h.start_le
  · rwa [hspan, hcover]
  · rw [hspan, hcover]
  · rw [hspan, hcover]
    exact hinside

/-- A node from its first child to its last. -/
theorem covering {first last : Tree} {between : List Tree} (h : Reached text n t.children c)
    (hchildren : t.children = first :: (between ++ [last]))
    (hspan : t.mark.span = first.mark.span.cover last.mark.span) : Reached text n [t] c := by
  have hordered := h.row.ordered
  rw [hchildren, List.pairwise_cons, List.pairwise_append] at hordered
  obtain ⟨hfirst, -, -, hlast⟩ := hordered
  have hmem : first ∈ t.children ∧ last ∈ t.children := by simp [hchildren]
  have hstretch (u : Tree) (hu : u ∈ t.children) : u.mark.span.IsStretchOf text :=
    (h.row.located u hu u u.mem_nodes_self).stretch
  have hle : first.mark.span.stop.offset ≤ last.mark.span.start.offset := hfirst _ (by simp)
  have hcover := Span.cover_eq (hstretch _ hmem.1) (hstretch _ hmem.2) hle
  have hlt := (hstretch _ hmem.1).lt
  have hlt' := (hstretch _ hmem.2).lt
  refine h.node ?_ ?_ ?_ fun u hu => ?_
  · rw [hspan]
    exact (hstretch _ hmem.1).cover (hstretch _ hmem.2) hle
  all_goals rw [hspan, hcover]
  · exact (h.row.between _ hmem.1).1
  · exact (h.row.between _ hmem.2).2
  · rw [hchildren, List.mem_cons, List.mem_append, List.mem_singleton] at hu
    -- A child is the first one, the last one or between the two.
    rcases hu with rfl | hu | rfl
    · exact ⟨Nat.le_refl _, by dsimp only; omega⟩
    · have hafter := hfirst u (by simp [hu])
      have hbefore := hlast u hu last List.mem_cons_self
      exact ⟨by dsimp only; omega, by dsimp only; omega⟩
    · exact ⟨by dsimp only; omega, Nat.le_refl _⟩

/-- A node from a token to the tree behind it, which it holds or has taken the place of. -/
theorem prefixed {first : Span} {operand : Tree} (hfirst : first.IsStretchOf text)
    (hstart : n ≤ first.start.offset) (h : Reached text first.stop.offset [operand] c)
    (hchildren : t.children.Sublist [operand])
    (hspan : t.mark.span = first.cover operand.mark.span) : Reached text n [t] c := by
  have hoperand := h.row.isLocated.stretch
  have hcover := Span.cover_eq hfirst hoperand h.row.start_le
  refine ((h.mono (Nat.le_trans hstart (Nat.le_of_lt hfirst.lt))).sublist hchildren).node
    ?_ ?_ ?_ fun u hu => ?_
  · rw [hspan]
    exact hfirst.cover hoperand h.row.start_le
  all_goals rw [hspan, hcover]
  · exact hstart
  · exact h.row.le_stop
  · -- The operand is the only child, if it is one at all.
    obtain rfl := List.mem_singleton.1 (hchildren.subset hu)
    exact ⟨Nat.le_trans (Nat.le_of_lt hfirst.lt) h.row.start_le, Nat.le_refl _⟩

/-- A node from a tree up to the token consumed last. -/
theorem behind {target : Tree} (htarget : Reached text n [target] c)
    (h : Reached text c.previous.stop.offset us c') (hchildren : t.children = target :: us)
    (hspan : t.mark.span = target.mark.span.cover c'.previous) : Reached text n [t] c' := by
  have hstretch := htarget.row.isLocated.stretch
  have hle : target.mark.span.stop.offset ≤ c'.previous.start.offset :=
    Nat.le_trans htarget.row.le_stop h.start_le
  have hcover := Span.cover_eq hstretch h.previous hle
  have hboth : Reached text n t.children c' := by
    rw [hchildren]
    exact htarget.append h
  refine hboth.node ?_ ?_ ?_ fun u hu => ?_
  · rw [hspan]
    exact hstretch.cover h.previous hle
  all_goals rw [hspan, hcover]
  · exact htarget.row.start_le
  · rw [hchildren, List.mem_cons] at hu
    -- The target is the first child, and the others stand behind it.
    rcases hu with rfl | hu
    · exact ⟨Nat.le_refl _, Nat.le_trans hle (Nat.le_of_lt h.previous.lt)⟩
    · obtain ⟨hstart, hstop⟩ := h.row.between u hu
      have hlt := hstretch.lt
      have hbefore := htarget.row.le_stop
      exact ⟨by dsimp only; omega, hstop⟩

end Reached

end Cursor

namespace Parser

open Cursor

variable {α : Type} {text : List Char} {n : Nat} {c c' : Cursor} {ts : List Tree} {t : Tree}

/-- A parser fails with an error that has a place in the text. -/
def Faults (text : List Char) (e : Option SyntaxError) (_ : Cursor) : Prop :=
  ∃ err, e = some err ∧ err.span.start.IsPlaceOf text

/-- An error about the current token has a place in the text. -/
theorem faults_of_span {error : SyntaxError} (h : Placed text n c.rest)
    (hspan : error.span = c.span) : Faults text (some error) c :=
  ⟨error, rfl, hspan ▸ isPlaceOf_span h⟩

/-- A parser of something made of trees puts them behind the tokens that it is given. -/
def Places (text : List Char) (view : α → List Tree) (p : Parser α) : Prop :=
  ∀ {n : Nat} {c : Cursor}, Placed text n c.rest →
    Meets (Faults text) p c fun a c' => Reached text n (view a) c'

/-! ## Symbols -/

/-- A symbol that may come is consumed, or the cursor stays where it is. -/
theorem skip_places (s : Symbol) (h : Placed text n c.rest) :
    Meets (Faults text) (skip s) c fun b c' =>
      b = true ∧ Reached text n [] c' ∨ b = false ∧ c' = c :=
  meets_skip (fun hk => .inl ⟨rfl, (reached_skip h (by simp [hk])).1⟩)
    fun _ => .inr ⟨rfl, rfl⟩

/-- A symbol that has to come leaves no tree, and its absence is an error about the current token.
-/
theorem expect_places (s : Symbol) : Places text (fun _ => []) (expect s) := fun h =>
  meets_expect (fun hk => (reached_skip h (by simp [hk])).1)
    fun _ => faults_of_span h rfl

/-- What stands before a symbol that has to come. -/
theorem reached_expect {s : Symbol} (h : Reached text n ts c) :
    Meets (Faults text) (expect s) c fun _ c' => Reached text n ts c' :=
  (expect_places s h.rest).mono fun _ _ h' => List.append_nil ts ▸ h.append h'

/-! ## Items -/

/-- Items stand one behind the other, each behind the comma of the one before it. -/
theorem itemsUpTo_places {view : α → List Tree} {item : Parser α} (hitem : Places text view item)
    (close : Symbol) (k : Nat) :
    Places text (List.flatMap view) (itemsUpTo item close k) := by
  induction k with
  | zero =>
    intro n c h
    rw [itemsUpTo]
    refine (hitem h).bind fun a c₁ h₁ => (reached_expect h₁).bind fun _ c₂ h₂ => meets_pure ?_
    rwa [List.flatMap_singleton]
  | succ k ih =>
    intro n c h
    rw [itemsUpTo]
    refine meets_get ?_
    split
    · exact (expect_places close h).bind fun _ c₁ h₁ => meets_pure h₁
    · refine (hitem h).bind fun a c₁ h₁ => (skip_places .comma h₁.rest).bind fun b c₂ h₂ => ?_
      -- A comma decides whether more items follow.
      rcases h₂ with ⟨rfl, h₂⟩ | ⟨rfl, rfl⟩
      · refine (ih h₂.rest).bind fun as c₃ h₃ => meets_pure ?_
        rw [List.flatMap_cons]
        exact h₁.append (h₂.append h₃)
      · refine (reached_expect h₁).bind fun _ c₃ h₃ => meets_pure ?_
        rwa [List.flatMap_singleton]

/-- The bound of a list of items does not matter to where they stand. -/
theorem items_places {view : α → List Tree} {item : Parser α} (hitem : Places text view item)
    (close : Symbol) : Places text (List.flatMap view) (items item close) := fun h =>
  meets_get (itemsUpTo_places hitem close _ h)

/-- A parser of trees. -/
abbrev PlacesTree (text : List Char) (p : Parser Tree) : Prop := Places text (fun t => [t]) p

/-- The arguments of a call stand in a row. -/
theorem args_places {expr : Parser Tree} (he : PlacesTree text expr) (close : Symbol) :
    Places text id (items expr close) := fun h =>
  (items_places he close h).mono fun args _ h' => by rwa [List.flatMap_singleton'] at h'

/-! ## Nodes -/

/-- A node stands where a tree of its place does, whatever number it is given. -/
theorem node_places {make : Mark → Tree} {span : Span}
    (h : ∀ mark : Mark, mark.span = span → Reached text n [make mark] c) :
    Meets (Faults text) (node make span) c fun t c' => Reached text n [t] c' :=
  meets_node ((h ⟨c.nextId, span⟩ rfl).numbered _)

/-- The call of a global function reaches from its name to the token consumed last, and so does what
a macro makes of it. -/
theorem globalCall_places {name : String} {args : List Tree} {first : Span}
    (hfirst : first.IsStretchOf text) (hstart : n ≤ first.start.offset)
    (h : Reached text first.stop.offset args c) :
    Meets (Faults text) (globalCall name args (first.cover c.previous)) c
      fun t c' => Reached text n [t] c' := by
  unfold globalCall
  refine meets_get ?_
  split
  · -- The test of a field takes the place of the selection.
    exact node_places fun mark hmark => Reached.around hfirst hstart h.children hmark
  · next arg _ => exact meets_throw ⟨_, rfl, h.row.isLocated.stretch.start⟩
  · exact node_places fun mark hmark => Reached.around hfirst hstart h hmark

/-- A call on a receiver reaches from the receiver to the token consumed last, and so does what a
macro makes of it. -/
theorem receiverCall_places {target : Tree} {name : String} {args : List Tree}
    (htarget : Reached text n [target] c') (h : Reached text c'.previous.stop.offset args c) :
    Meets (Faults text) (receiverCall target name args (target.mark.span.cover c.previous)) c
      fun t c' => Reached text n [t] c' := by
  unfold receiverCall
  refine meets_get ?_
  split
  · -- The name of the variable is no node.
    next mark var body _ _ =>
    have hbody : Reached text c'.previous.stop.offset [body] c :=
      h.sublist (List.sublist_cons_self _ _)
    exact node_places fun mark hmark => htarget.behind hbody rfl hmark
  · next var body _ _ _ =>
    have hvar := h.row.located var List.mem_cons_self var var.mem_nodes_self
    exact meets_throw ⟨_, rfl, hvar.stretch.start⟩
  · exact node_places fun mark hmark => htarget.behind h rfl hmark

/-- A sign reaches from its token to the end of its operand. A constant that has taken the sign in
stands there too, with no child left. -/
theorem unaryNode_places {op : UnaryOp} {operand : Tree} {first : Span}
    (hfirst : first.IsStretchOf text) (hstart : n ≤ first.start.offset)
    (h : Reached text first.stop.offset [operand] c) :
    Meets (Faults text) (unaryNode op operand (first.cover operand.mark.span)) c
      fun t c' => Reached text n [t] c' := by
  unfold unaryNode
  dsimp only
  split
  · exact node_places fun mark hmark =>
      Reached.prefixed hfirst hstart h (List.nil_sublist _) hmark
  · exact node_places fun mark hmark =>
      Reached.prefixed hfirst hstart h (List.Sublist.refl _) hmark

/-! ## What stands alone -/

/-- The key of an entry stands before its value. -/
theorem entry_places {expr : Parser Tree} (he : PlacesTree text expr) :
    Places text (fun e : Tree × Tree => [e.1, e.2])
      (do let key ← expr; expect .colon; let value ← expr; return (key, value)) := fun h =>
  (he h).bind fun _ _ h₁ => (reached_expect h₁).bind fun _ _ h₂ =>
    (he h₂.rest).bind fun _ _ h₃ => meets_pure (h₂.append h₃)

/-- What stands alone is put behind the tokens given, one case for each token that it can begin
with. -/
theorem primary_places {expr : Parser Tree} (he : PlacesTree text expr) :
    PlacesTree text (Level.primary expr) := by
  intro n c h
  unfold Level.primary
  refine meets_get ?_
  -- The token that decides is consumed, and its span is that of the token consumed last.
  have hfirst : ∀ {k span rest}, c.rest = ⟨k, span⟩ :: rest → k ≠ .eof →
      Reached text n [] c.skip ∧ c.skip.previous = span := by
    intro k span rest hr hk
    have hskip := reached_skip h (by rwa [Cursor.kind, hr])
    rwa [Cursor.span, hr] at hskip
  split
  · next value span rest hr =>
    obtain ⟨hskip, rfl⟩ := hfirst hr (by simp)
    exact meets_advance (node_places fun mark hmark => hskip.leaf rfl hmark)
  · next name span rest hr =>
    obtain ⟨hskip, rfl⟩ := hfirst hr (by simp)
    refine meets_advance ((skip_places .leftParen hskip.rest).bind fun b c₁ h₁ => ?_)
    rcases h₁ with ⟨rfl, h₁⟩ | ⟨rfl, rfl⟩
    · refine (args_places he .rightParen h₁.rest).bind fun args c₂ h₂ => meets_get ?_
      exact globalCall_places hskip.previous hskip.start_le (h₁.append h₂)
    · rw [if_neg Bool.false_ne_true]
      exact node_places fun mark hmark => hskip.leaf rfl hmark
  · next span rest hr =>
    obtain ⟨hskip, -⟩ := hfirst hr (by simp)
    refine meets_advance ((he hskip.rest).bind fun inner c₁ h₁ => ?_)
    exact (reached_expect (hskip.append h₁)).bind fun _ c₂ h₂ => meets_pure h₂
  · next span rest hr =>
    obtain ⟨hskip, rfl⟩ := hfirst hr (by simp)
    refine meets_advance ((args_places he .rightBracket hskip.rest).bind fun elements c₁ h₁ => ?_)
    exact meets_get (node_places fun mark hmark =>
      Reached.around hskip.previous hskip.start_le h₁ hmark)
  · next span rest hr =>
    obtain ⟨hskip, rfl⟩ := hfirst hr (by simp)
    refine meets_advance ((items_places (entry_places he) .rightBrace hskip.rest).bind
      fun entries c₁ h₁ => ?_)
    exact meets_get (node_places fun mark hmark =>
      Reached.around hskip.previous hskip.start_le h₁ hmark)
  · exact meets_failWith (faults_of_span h rfl)

namespace Level

/-- The parsers of a budget put trees behind their tokens, and chains go on with the tree in
hand. -/
structure Places (text : List Char) (l : Level) : Prop where
  expr : PlacesTree text l.expr
  unary : PlacesTree text l.unary
  binaryChain : ∀ {least : Nat} {left : Tree} {n : Nat} {c : Cursor}, Reached text n [left] c →
    Meets (Faults text) (l.binaryChain least left) c fun t c' => Reached text n [t] c'
  memberChain : ∀ {target : Tree} {n : Nat} {c : Cursor}, Reached text n [target] c →
    Meets (Faults text) (l.memberChain target) c fun t c' => Reached text n [t] c'

variable {l : Level} {below : Option Level} {target left : Tree} {least : Nat}

/-- A chain of binary operators stands behind the tokens before it. -/
theorem Places.binary (hl : l.Places text) (least : Nat) : PlacesTree text (l.binary least) :=
  fun h => (hl.unary h).bind fun _ _ h₁ => hl.binaryChain h₁

/-- A conditional reaches from its condition to its last branch. -/
theorem Places.conditional (hl : l.Places text) : PlacesTree text l.conditional := by
  intro n c h
  refine (hl.binary _ h).bind fun condition c₁ h₁ => ?_
  refine (skip_places .question h₁.rest).bind fun b c₂ h₂ => ?_
  rcases h₂ with ⟨rfl, h₂⟩ | ⟨rfl, rfl⟩
  · refine (hl.binary _ h₂.rest).bind fun yes c₃ h₃ => ?_
    refine (reached_expect h₃).bind fun _ c₄ h₄ => ?_
    refine (hl.expr h₄.rest).bind fun no c₅ h₅ => node_places fun mark hmark => ?_
    have hchildren : [condition, yes, no] = condition :: ([yes] ++ [no]) := rfl
    exact Reached.covering (h₁.append (h₂.append (h₄.append h₅))) hchildren hmark
  · exact meets_pure h₁

/-- A name behind a point: a field of the target, or a call on it. -/
theorem Places.field (hl : l.Places text) (htarget : Reached text n [target] c')
    (h : Reached text c'.previous.stop.offset [] c) :
    Meets (Faults text) (l.field target) c fun t c' => Reached text n [t] c' := by
  unfold Level.field
  refine meets_get ?_
  split
  · next name span rest hr =>
    have hskip := reached_skip h.rest (by simp [Cursor.kind, hr])
    rw [Cursor.span, hr] at hskip
    obtain ⟨hskip, rfl⟩ := hskip
    refine meets_advance ((skip_places .leftParen hskip.rest).bind fun b c₁ h₁ => ?_)
    rcases h₁ with ⟨rfl, h₁⟩ | ⟨rfl, rfl⟩
    · refine (args_places hl.expr .rightParen h₁.rest).bind fun args c₂ h₂ => meets_get ?_
      exact receiverCall_places htarget (h.append (hskip.append (h₁.append h₂)))
    · rw [if_neg Bool.false_ne_true]
      exact node_places fun mark hmark => htarget.behind (h.append hskip) rfl hmark
  · -- Another token is consumed before the error about it is reported.
    next kind span rest _ hr =>
    have hspan := isPlaceOf_span h.rest
    rw [Cursor.span, hr] at hspan
    exact meets_advance (meets_throw ⟨_, rfl, hspan⟩)
  · next hr =>
    -- Tokens of a text end in the end mark, so there is a next one.
    have hrest := h.rest
    rw [hr] at hrest
    cases hrest

/-- An index reaches from the tree before the bracket to the closing one. -/
theorem Places.index (hl : l.Places text) (htarget : Reached text n [target] c')
    (h : Reached text c'.previous.stop.offset [] c) :
    Meets (Faults text) (l.index target) c fun t c' => Reached text n [t] c' := by
  unfold Level.index
  refine (hl.expr h.rest).bind fun i c₁ h₁ => ?_
  refine (reached_expect (h.append h₁)).bind fun _ c₂ h₂ => meets_get ?_
  exact node_places fun mark hmark => htarget.behind h₂ rfl hmark

/-! ## Each parser of a budget from those of the budget below -/

/-- Whole expressions stand behind the tokens before them, if those of the level below do. -/
theorem ofBelow_expr_places (hb : ∀ l, below = some l → l.Places text) :
    PlacesTree text (ofBelow below).expr := by
  intro n c h
  cases below with
  | none => exact meets_failWith (faults_of_span h rfl)
  | some l => exact (hb l rfl).conditional h

/-- A member or an index is taken around the target, and the level below goes on with the result. -/
theorem ofBelow_memberChain_places (hb : ∀ l, below = some l → l.Places text)
    (h : Reached text n [target] c) :
    Meets (Faults text) ((ofBelow below).memberChain target) c
      fun t c' => Reached text n [t] c' := by
  by_cases hk : c.kind = .symbol .dot ∨ c.kind = .symbol .leftBracket
  · cases below with
    | none =>
      rw [Meets, run_memberChain_none hk]
      exact faults_of_span h.rest rfl
    | some l =>
      have hl := hb l rfl
      have hskip := (reached_skip h.rest (by rcases hk with hk | hk <;> simp [hk])).1
      rcases hk with hk | hk
      · exact ((hl.field h hskip).bind fun _ _ h₁ => hl.memberChain h₁).congr
          (run_memberChain_dot hk)
      · exact ((hl.index h hskip).bind fun _ _ h₁ => hl.memberChain h₁).congr
          (run_memberChain_bracket hk)
  · rw [not_or] at hk
    rw [Meets, run_memberChain_stop hk.1 hk.2]
    exact h

/-- A sign stands before the operand that the level below reads; without one, what stands alone is
followed by its members. -/
theorem ofBelow_unary_places (hb : ∀ l, below = some l → l.Places text) :
    PlacesTree text (ofBelow below).unary := by
  intro n c h
  cases hop : UnaryOp.ofKind? c.kind with
  | none =>
    exact ((primary_places (ofBelow_expr_places hb) h).bind fun _ _ h₁ =>
      ofBelow_memberChain_places hb h₁).congr (run_unary_member hop)
  | some op =>
    cases below with
    | none =>
      rw [Meets, run_unary_none hop]
      exact faults_of_span h rfl
    | some l =>
      obtain ⟨hskip, hspan⟩ := reached_skip h fun he => by simp [he, UnaryOp.ofKind?] at hop
      refine Meets.congr ?_ (run_unary_operator hop)
      rw [← hspan]
      exact ((hb l rfl).unary hskip.rest).bind fun _ _ h₁ =>
        unaryNode_places hskip.previous hskip.start_le h₁

/-- A link covers its operands, and the level below goes on with it as the left one. -/
theorem ofBelow_binaryChain_places (hb : ∀ l, below = some l → l.Places text)
    (h : Reached text n [left] c) :
    Meets (Faults text) ((ofBelow below).binaryChain least left) c
      fun t c' => Reached text n [t] c' := by
  cases hop : BinaryOp.ofKind? c.kind with
  | none =>
    rw [Meets, run_binaryChain_stop hop]
    exact h
  | some op =>
    by_cases hlt : op.binding < least
    · rw [Meets, run_binaryChain_loose hop hlt]
      exact h
    · have hge := Nat.not_lt.1 hlt
      cases below with
      | none =>
        rw [Meets, run_binaryChain_none hop hge]
        exact faults_of_span h.rest rfl
      | some l =>
        have hl := hb l rfl
        have hskip := (reached_skip h.rest fun he => by simp [he, BinaryOp.ofKind?] at hop).1
        refine Meets.congr ?_ (run_binaryChain_link hop hge)
        refine (hl.binary _ hskip.rest).bind fun right c₁ h₁ => ?_
        -- The link covers both operands, and the chain goes on with it in hand.
        refine (node_places fun mark hmark => ?_).bind fun _ _ h₂ => hl.binaryChain h₂
        have hchildren : [left, right] = left :: ([] ++ [right]) := rfl
        exact Reached.covering (h.append (hskip.append h₁)) hchildren hmark

/-- Every parser of a level stands by those of the level below. -/
theorem ofBelow_places (hb : ∀ l, below = some l → l.Places text) :
    (ofBelow below).Places text where
  expr := ofBelow_expr_places hb
  unary := ofBelow_unary_places hb
  binaryChain := ofBelow_binaryChain_places hb
  memberChain := ofBelow_memberChain_places hb

end Level

/-- The parsers of any budget put what they make behind the tokens that they are given. -/
theorem level_places (text : List Char) (budget : Nat) : (level budget).Places text := by
  induction budget with
  | zero => exact Level.ofBelow_places fun l h => by cases h
  | succ budget ih => exact Level.ofBelow_places fun l h => by cases h; exact ih

end Parser

namespace Expr

/-! ## Parsed tokens -/

/-- Tokens that stand in a text give a tree that stands there, or an error at one of them. -/
theorem ofTokens_places {text : List Char} {tokens : List Token} (h : Placed text 0 tokens)
    (m : Bool) :
    match ofTokens tokens m with
    | .ok t => ∀ n ∈ t.nodes, n.IsLocated text
    | .error e => e.span.start.IsPlaceOf text := by
  have hmeets := (Parser.level_places text maxDepth).expr (c := ⟨tokens, .dummy, 1, m⟩) h
  unfold ofTokens
  cases hrun : Parser.expr maxDepth ⟨tokens, .dummy, 1, m⟩ with
  | ok tree cursor =>
    have hreached := hmeets.of_ok hrun
    -- What is left behind the tree is an error at its first token.
    by_cases hend : cursor.atEnd = true
    · simp only [hend, if_true]
      exact hreached.row.located tree List.mem_cons_self
    · simp only [hend]
      exact Cursor.isPlaceOf_span hreached.rest
  | error e cursor =>
    obtain ⟨err, rfl, herr⟩ := hmeets.of_error hrun
    exact herr

end Expr

end CelShell
