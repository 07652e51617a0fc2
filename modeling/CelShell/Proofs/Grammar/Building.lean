import CelShell.Proofs.Expr.Location
import CelShell.Proofs.Grammar.Triple

/-!
# How parsers build trees

A run of the parser consumes tokens and makes nodes of the trees that it has made last, so at every
moment there is a stack of trees that no node holds yet. `Cursor.Builds` is the relation of that
machine: from one cursor on, by such steps, another cursor is reached with a stack. Every parser
takes these steps and no others, and where it succeeds it has put what it read on the stack
(`Parser.level_builds`). What is claimed of the number of each node, or of how far a cursor has
come, is an induction on the steps.
-/

namespace CelShell

/-- From a cursor on, tokens are consumed and nodes are made. The list holds the trees made so far
that are in no other, the latest at its end. -/
inductive Cursor.Builds (c₀ : Cursor) : List Tree → Cursor → Prop where
  | start : Builds c₀ [] c₀
  | token {ts : List Tree} {c : Cursor} {t : Token} {rest : List Token} :
      Builds c₀ ts c → c.rest = t :: rest → Builds c₀ ts c.skip
  /-- A node takes its children from the end of the list, and the next number. -/
  | node {ts : List Tree} {t : Tree} {c : Cursor} :
      Builds c₀ (ts ++ t.children) c → t.mark.id = c.nextId →
      Builds c₀ (ts ++ [t]) { c with nextId := c.nextId + 1 }
  /-- A tree gives up its root: a test of a field takes the place of the selection. -/
  | unwrap {ts : List Tree} {t : Tree} {c : Cursor} :
      Builds c₀ (ts ++ [t]) c → Builds c₀ (ts ++ t.children) c
  /-- Trees are left out: a constant that is folded, the name of a loop variable. -/
  | sublist {ts us : List Tree} {c : Cursor} :
      Builds c₀ ts c → us.Sublist ts → Builds c₀ us c

/-- A token that is not the end mark is consumed. -/
theorem Cursor.Builds.skip {c₀ c : Cursor} {ts : List Tree} (h : Cursor.Builds c₀ ts c)
    (hk : c.kind ≠ .eof) : Cursor.Builds c₀ ts c.skip := by
  obtain ⟨ks, hks⟩ := Cursor.kinds_of_kind hk
  obtain ⟨span, rest, hrest⟩ := Cursor.rest_of_kinds hks
  exact h.token hrest

namespace Parser

open Cursor

variable {α : Type} {c₀ c : Cursor} {ts us : List Tree}

/-- Where a parser that started at a cursor may fail: somewhere on its way, and without an error of
its own only behind a point that is the last of the tokens. -/
def FailsFrom (c₀ : Cursor) (e : Option SyntaxError) (c : Cursor) : Prop :=
  (∃ ts, Cursor.Builds c₀ ts c) ∧
    (e = none → ∃ ts c', Cursor.Builds c₀ ts c' ∧ c'.kinds = [.symbol .dot])

/-- A parser may fail with an error of its own anywhere on its way. -/
theorem failsFrom_error (h : Cursor.Builds c₀ ts c) (error : SyntaxError) :
    FailsFrom c₀ (some error) c := ⟨⟨ts, h⟩, nofun⟩

/-- A parser of something made of trees puts them on the stack. -/
def BuildsOn (c₀ : Cursor) (view : α → List Tree) (p : Parser α) : Prop :=
  ∀ ⦃ts : List Tree⦄ ⦃c : Cursor⦄, Cursor.Builds c₀ ts c →
    Meets (FailsFrom c₀) p c fun a c' => Cursor.Builds c₀ (ts ++ view a) c'

/-- A parser of trees. -/
abbrev BuildsTree (c₀ : Cursor) (p : Parser Tree) : Prop := BuildsOn c₀ (fun t => [t]) p

/-! ## Symbols -/

/-- A symbol that may be there adds no tree to the stack. -/
theorem skip_builds (s : Symbol) (h : Cursor.Builds c₀ ts c) :
    Meets (FailsFrom c₀) (skip s) c fun _ c' => Cursor.Builds c₀ ts c' :=
  meets_skip (fun hk => h.skip (by simp [hk])) fun _ => h

/-- A symbol that has to be there adds no tree to the stack. -/
theorem expect_builds (s : Symbol) (h : Cursor.Builds c₀ ts c) :
    Meets (FailsFrom c₀) (expect s) c fun _ c' => Cursor.Builds c₀ ts c' :=
  meets_expect (fun hk => h.skip (by simp [hk])) fun _ => failsFrom_error h _

/-! ## Items -/

/-- Items put their trees on the stack one after the other, whatever bounds their number. -/
theorem itemsUpTo_builds {view : α → List Tree} {item : Parser α} (hitem : BuildsOn c₀ view item)
    (close : Symbol) (k : Nat) : BuildsOn c₀ (List.flatMap view) (itemsUpTo item close k) := by
  induction k with
  | zero =>
    intro ts c h
    rw [itemsUpTo]
    refine (hitem h).bind fun a c₁ h₁ => (expect_builds close h₁).bind fun _ c₂ h₂ => meets_pure ?_
    rwa [List.flatMap_singleton]
  | succ k ih =>
    intro ts c h
    rw [itemsUpTo]
    refine meets_get ?_
    split
    · refine (expect_builds close h).bind fun _ c₁ h₁ => meets_pure ?_
      rwa [List.flatMap_nil, List.append_nil]
    · refine (hitem h).bind fun a c₁ h₁ => (skip_builds .comma h₁).bind fun b c₂ h₂ => ?_
      -- A comma decides whether more items are put on the stack.
      cases b with
      | true =>
        refine (ih h₂).bind fun as c₃ h₃ => meets_pure ?_
        rwa [List.flatMap_cons, ← List.append_assoc]
      | false =>
        refine (expect_builds close h₂).bind fun _ c₃ h₃ => meets_pure ?_
        rwa [List.flatMap_singleton]

/-- A list of items puts its trees on the stack. -/
theorem items_builds {view : α → List Tree} {item : Parser α} (hitem : BuildsOn c₀ view item)
    (close : Symbol) : BuildsOn c₀ (List.flatMap view) (items item close) := fun _ _ h =>
  meets_get (itemsUpTo_builds hitem close _ h)

/-- A list of expressions puts them on the stack. -/
theorem args_builds {expr : Parser Tree} (he : BuildsTree c₀ expr) (close : Symbol) :
    BuildsOn c₀ id (items expr close) := fun _ _ h =>
  (items_builds he close h).mono fun args _ h' => by rwa [List.flatMap_singleton'] at h'

/-! ## Nodes -/

/-- A node takes its children from the stack and is put there for them. -/
theorem node_builds {make : Mark → Tree} {span : Span} (h : Cursor.Builds c₀ (ts ++ us) c)
    (hmake : ∀ m, (make m).mark = m ∧ (make m).children = us) :
    Meets (FailsFrom c₀) (node make span) c fun t c' => Cursor.Builds c₀ (ts ++ [t]) c' := by
  refine meets_node (.node ?_ (congrArg Mark.id (hmake _).1))
  rwa [(hmake _).2]

/-- A node without children is put on the stack. -/
theorem leaf_builds {make : Mark → Tree} {span : Span} (h : Cursor.Builds c₀ ts c)
    (hmake : ∀ m, (make m).mark = m ∧ (make m).children = []) :
    Meets (FailsFrom c₀) (node make span) c fun t c' => Cursor.Builds c₀ (ts ++ [t]) c' :=
  node_builds ((List.append_nil ts).symm ▸ h) hmake

/-- A call takes its arguments from the stack, and a presence test the operand of its argument. -/
theorem globalCall_builds {name : String} {args : List Tree} {span : Span}
    (h : Cursor.Builds c₀ (ts ++ args) c) :
    Meets (FailsFrom c₀) (globalCall name args span) c
      fun t c' => Cursor.Builds c₀ (ts ++ [t]) c' := by
  unfold globalCall
  refine meets_get ?_
  split
  · -- The test of a field takes the place of the selection.
    exact node_builds h.unwrap fun _ => ⟨rfl, rfl⟩
  · exact meets_throw (failsFrom_error h _)
  · exact node_builds h fun _ => ⟨rfl, rfl⟩

/-- A call on a target takes the target and the arguments from the stack, and a loop all but the
name of its variable. -/
theorem receiverCall_builds {target : Tree} {name : String} {args : List Tree} {span : Span}
    (h : Cursor.Builds c₀ (ts ++ target :: args) c) :
    Meets (FailsFrom c₀) (receiverCall target name args span) c
      fun t c' => Cursor.Builds c₀ (ts ++ [t]) c' := by
  unfold receiverCall
  refine meets_get ?_
  split
  · -- The name of the variable is no node.
    next mark var body _ _ =>
    have hless : [target, body].Sublist [target, .ident mark var, body] :=
      (List.sublist_cons_self _ _).cons_cons _
    exact node_builds (h.sublist ((List.Sublist.refl ts).append hless)) fun _ => ⟨rfl, rfl⟩
  · exact meets_throw (failsFrom_error h _)
  · exact node_builds h fun _ => ⟨rfl, rfl⟩

/-- An operator before its operand takes it from the stack, and a folded constant leaves it out. -/
theorem unaryNode_builds {op : UnaryOp} {operand : Tree} {span : Span}
    (h : Cursor.Builds c₀ (ts ++ [operand]) c) :
    Meets (FailsFrom c₀) (unaryNode op operand span) c
      fun t c' => Cursor.Builds c₀ (ts ++ [t]) c' := by
  unfold unaryNode
  dsimp only
  split
  · -- The constant is made anew.
    exact leaf_builds (h.sublist (List.sublist_append_left ts _)) fun _ => ⟨rfl, rfl⟩
  · exact node_builds h fun _ => ⟨rfl, rfl⟩

/-! ## What stands alone -/

/-- An entry puts its key and its value on the stack. -/
theorem entry_builds {expr : Parser Tree} (he : BuildsTree c₀ expr) :
    BuildsOn c₀ (fun e : Tree × Tree => [e.1, e.2])
      (do let key ← expr; expect .colon; let value ← expr; return (key, value)) := fun ts _ h =>
  (he h).bind fun _ _ h₁ => (expect_builds .colon h₁).bind fun _ _ h₂ =>
    (he h₂).bind fun key _ h₃ => meets_pure (by rwa [List.append_assoc] at h₃)

/-- What stands alone puts its tree on the stack. -/
theorem primary_builds {expr : Parser Tree} (he : BuildsTree c₀ expr) :
    BuildsTree c₀ (Level.primary expr) := by
  intro ts c h
  unfold Level.primary
  refine meets_get ?_
  -- Parentheses leave their one tree on the stack; each other form makes a node.
  split
  · next hrest => exact meets_advance (leaf_builds (h.token hrest) fun _ => ⟨rfl, rfl⟩)
  · next hrest =>
    refine meets_advance ((skip_builds .leftParen (h.token hrest)).bind fun b c₁ h₁ => ?_)
    cases b with
    | true =>
      refine (args_builds he .rightParen h₁).bind fun args c₂ h₂ => meets_get ?_
      exact globalCall_builds h₂
    | false =>
      rw [if_neg Bool.false_ne_true]
      exact leaf_builds h₁ fun _ => ⟨rfl, rfl⟩
  · next hrest =>
    refine meets_advance ((he (h.token hrest)).bind fun inner c₁ h₁ => ?_)
    exact (expect_builds .rightParen h₁).bind fun _ c₂ h₂ => meets_pure h₂
  · next hrest =>
    refine meets_advance ((args_builds he .rightBracket (h.token hrest)).bind
      fun elements c₁ h₁ => ?_)
    exact meets_get (node_builds h₁ fun _ => ⟨rfl, rfl⟩)
  · next hrest =>
    refine meets_advance ((items_builds (entry_builds he) .rightBrace (h.token hrest)).bind
      fun entries c₁ h₁ => ?_)
    exact meets_get (node_builds h₁ fun _ => ⟨rfl, rfl⟩)
  · exact meets_failWith (failsFrom_error h _)

namespace Level

/-- The parsers of a budget put a tree on the stack, and chains replace the tree in hand. -/
structure Builds (c₀ : Cursor) (l : Level) : Prop where
  expr : BuildsTree c₀ l.expr
  unary : BuildsTree c₀ l.unary
  binaryChain : ∀ {least : Nat} {left : Tree} {ts : List Tree} {c : Cursor},
    Cursor.Builds c₀ (ts ++ [left]) c →
      Meets (FailsFrom c₀) (l.binaryChain least left) c
        fun t c' => Cursor.Builds c₀ (ts ++ [t]) c'
  memberChain : ∀ {target : Tree} {ts : List Tree} {c : Cursor},
    Cursor.Builds c₀ (ts ++ [target]) c →
      Meets (FailsFrom c₀) (l.memberChain target) c fun t c' => Cursor.Builds c₀ (ts ++ [t]) c'

variable {l : Level} {below : Option Level} {target left : Tree} {least : Nat}

/-- A chain of operators puts its tree on the stack. -/
theorem Builds.binary (hl : l.Builds c₀) (least : Nat) : BuildsTree c₀ (l.binary least) :=
  fun _ _ h => (hl.unary h).bind fun _ _ h₁ => hl.binaryChain h₁

/-- A conditional takes its three parts from the stack. -/
theorem Builds.conditional (hl : l.Builds c₀) : BuildsTree c₀ l.conditional := by
  intro ts c h
  refine (hl.binary _ h).bind fun condition c₁ h₁ => ?_
  refine (skip_builds .question h₁).bind fun b c₂ h₂ => ?_
  cases b with
  | true =>
    refine (hl.binary _ h₂).bind fun yes c₃ h₃ => ?_
    refine (expect_builds .colon h₃).bind fun _ c₄ h₄ => (hl.expr h₄).bind fun no c₅ h₅ => ?_
    rw [List.append_assoc, List.append_assoc] at h₅
    exact node_builds h₅ fun _ => ⟨rfl, rfl⟩
  | false => exact meets_pure h₂

/-- A name behind a point: a field of the target, or a call on it. -/
theorem Builds.field (hl : l.Builds c₀) (h : Cursor.Builds c₀ (ts ++ [target]) c)
    (hdot : c.kind = .symbol .dot) :
    Meets (FailsFrom c₀) (l.field target) c.skip
      fun t c' => Cursor.Builds c₀ (ts ++ [t]) c' := by
  have hskip := h.skip (by simp [hdot])
  unfold Level.field
  refine meets_get ?_
  split
  · next hrest =>
    refine meets_advance ((skip_builds .leftParen (hskip.token hrest)).bind fun b c₁ h₁ => ?_)
    cases b with
    | true =>
      refine (args_builds hl.expr .rightParen h₁).bind fun args c₂ h₂ => meets_get ?_
      rw [List.append_assoc] at h₂
      exact receiverCall_builds h₂
    | false =>
      rw [if_neg Bool.false_ne_true]
      exact node_builds h₁ fun _ => ⟨rfl, rfl⟩
  · next hrest => exact meets_advance (meets_throw (failsFrom_error (hskip.token hrest) _))
  · next hrest =>
    -- The point is the last token.
    obtain ⟨ks, hks⟩ := kinds_of_kind (c := c) (by simp [hdot])
    have hlast : ks = [] := by
      rw [← kinds_skip hks, kinds, hrest, List.map_nil]
    rw [hlast, hdot] at hks
    exact meets_throw ⟨⟨_, hskip⟩, fun _ => ⟨_, c, h, hks⟩⟩

/-- An index takes the expression before it and the one in brackets from the stack. -/
theorem Builds.index (hl : l.Builds c₀) (h : Cursor.Builds c₀ (ts ++ [target]) c) :
    Meets (FailsFrom c₀) (l.index target) c fun t c' => Cursor.Builds c₀ (ts ++ [t]) c' := by
  unfold Level.index
  refine (hl.expr h).bind fun i c₁ h₁ => ?_
  refine (expect_builds .rightBracket h₁).bind fun _ c₂ h₂ => meets_get ?_
  rw [List.append_assoc] at h₂
  exact node_builds h₂ fun _ => ⟨rfl, rfl⟩

/-! ## Each parser of a budget from those of the budget below -/

/-- A whole expression puts its tree on the stack. -/
theorem ofBelow_expr_builds (hb : ∀ l, below = some l → l.Builds c₀) :
    BuildsTree c₀ (ofBelow below).expr := by
  intro ts c h
  cases below with
  | none => exact meets_failWith (failsFrom_error h _)
  | some l => exact (hb l rfl).conditional h

/-- A chain of members takes the expression before it from the stack. -/
theorem ofBelow_memberChain_builds (hb : ∀ l, below = some l → l.Builds c₀)
    (h : Cursor.Builds c₀ (ts ++ [target]) c) :
    Meets (FailsFrom c₀) ((ofBelow below).memberChain target) c
      fun t c' => Cursor.Builds c₀ (ts ++ [t]) c' := by
  by_cases hk : c.kind = .symbol .dot ∨ c.kind = .symbol .leftBracket
  · cases below with
    | none =>
      rw [Meets, run_memberChain_none hk]
      exact failsFrom_error h _
    | some l =>
      have hl := hb l rfl
      -- The link takes the target from the stack and puts itself there.
      rcases hk with hk | hk
      · exact ((hl.field h hk).bind fun _ _ h₁ => hl.memberChain h₁).congr (run_memberChain_dot hk)
      · have hskip := h.skip (by simp [hk])
        exact ((hl.index hskip).bind fun _ _ h₁ => hl.memberChain h₁).congr
          (run_memberChain_bracket hk)
  · rw [not_or] at hk
    rw [Meets, run_memberChain_stop hk.1 hk.2]
    exact h

/-- An operand puts its tree on the stack. -/
theorem ofBelow_unary_builds (hb : ∀ l, below = some l → l.Builds c₀) :
    BuildsTree c₀ (ofBelow below).unary := by
  intro ts c h
  cases hop : UnaryOp.ofKind? c.kind with
  | none =>
    exact ((primary_builds (ofBelow_expr_builds hb) h).bind fun _ _ h₁ =>
      ofBelow_memberChain_builds hb h₁).congr (run_unary_member hop)
  | some op =>
    cases below with
    | none =>
      rw [Meets, run_unary_none hop]
      exact failsFrom_error h _
    | some l =>
      -- The operand is on the stack when the sign is taken around it.
      have hskip := h.skip fun he => by simp [he, UnaryOp.ofKind?] at hop
      exact (((hb l rfl).unary hskip).bind fun _ _ h₁ => unaryNode_builds h₁).congr
        (run_unary_operator hop)

/-- A chain of operators takes what was read of it from the stack. -/
theorem ofBelow_binaryChain_builds (hb : ∀ l, below = some l → l.Builds c₀)
    (h : Cursor.Builds c₀ (ts ++ [left]) c) :
    Meets (FailsFrom c₀) ((ofBelow below).binaryChain least left) c
      fun t c' => Cursor.Builds c₀ (ts ++ [t]) c' := by
  cases hop : BinaryOp.ofKind? c.kind with
  | none =>
    rw [Meets, run_binaryChain_stop hop]
    exact h
  | some op =>
    by_cases hlt : op.binding < least
    · rw [Meets, run_binaryChain_loose hop hlt]
      exact h
    · have hge := Nat.not_lt.1 hlt
      cases below with
      | none =>
        rw [Meets, run_binaryChain_none hop hge]
        exact failsFrom_error h _
      | some l =>
        have hl := hb l rfl
        have hskip := h.skip fun he => by simp [he, BinaryOp.ofKind?] at hop
        refine Meets.congr ?_ (run_binaryChain_link hop hge)
        refine (hl.binary _ hskip).bind fun right c₁ h₁ => ?_
        rw [List.append_assoc] at h₁
        -- The link takes both operands, and the chain goes on with it in hand.
        exact (node_builds h₁ fun _ => ⟨rfl, rfl⟩).bind fun _ _ h₂ => hl.binaryChain h₂

/-- The parsers of a budget put their trees on the stack if those below do. -/
theorem ofBelow_builds (hb : ∀ l, below = some l → l.Builds c₀) : (ofBelow below).Builds c₀ where
  expr := ofBelow_expr_builds hb
  unary := ofBelow_unary_builds hb
  binaryChain := ofBelow_binaryChain_builds hb
  memberChain := ofBelow_memberChain_builds hb

end Level

/-- The parsers of each budget put their trees on the stack. -/
theorem level_builds (c₀ : Cursor) (budget : Nat) : (level budget).Builds c₀ := by
  induction budget with
  | zero => exact Level.ofBelow_builds fun l h => by cases h
  | succ budget ih => exact Level.ofBelow_builds fun l h => by cases h; exact ih

/-- An expression is built from nothing, and fails on the way to it. -/
theorem expr_builds (budget : Nat) (c : Cursor) :
    Meets (FailsFrom c) (expr budget) c fun t c' => Cursor.Builds c [t] c' :=
  (level_builds c budget).expr .start

end Parser

end CelShell
