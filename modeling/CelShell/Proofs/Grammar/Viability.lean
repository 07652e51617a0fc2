import CelShell.Proofs.Grammar.Lookahead
import CelShell.Proofs.Grammar.Recognition
import CelShell.Proofs.Token.Lexing

/-!
# Where a syntax error is

A syntax error points at the first token that is impossible: the tokens before it begin an
expression, and no expression begins with those tokens and that one.

That the tokens before it begin an expression is shown parser by parser. Each of them is prompt
(`Parser.Prompt`) about what its nonterminal begins with (`Grammar.Begins`), since wherever it
stops, a name, a closing bracket or a branch would have let it go on. That the token itself is
impossible follows from completeness: an expression that begins with the tokens up to that one would
be parsed, but a parser that looks one token ahead fails on it in the same way.
-/

namespace CelShell

namespace Grammar

variable {β γ : Type} {spells : β → List Kind → Prop} {spells' : γ → List Kind → Prop}
  {ks whole : List Kind} {level level' : Nat}

/-! ## Beginnings -/

/-- Tokens that begin what is spelled. -/
def Begun (spells : β → List Kind → Prop) (ks : List Kind) : Prop :=
  ∃ b more, spells b (ks ++ more)

/-- Tokens that begin an expression of a level. -/
abbrev Begins (level : Nat) : List Kind → Prop :=
  Begun fun e => Derives false (.expr level e)

/-- What begins a part begins the whole, if all that completes the part begins the whole. -/
theorem Begun.within (h : Begun spells ks)
    (hwhole : ∀ b more, spells b (ks ++ more) → Begun spells' (whole ++ more)) :
    Begun spells' whole := by
  obtain ⟨b, more, hb⟩ := h
  obtain ⟨b', rest, hb'⟩ := hwhole b more hb
  exact ⟨b', more ++ rest, by simpa using hb'⟩

/-- A name is an expression of each level. -/
theorem derives_name (hpos : Binding.conditional ≤ level) (hle : level ≤ primary) :
    Derives false (.expr level (.ident () "x")) [.ident "x"] :=
  Derives.ident.loosen hle hpos

/-- No tokens begin an expression of any level, since a name is one. -/
theorem begins_nil (hpos : Binding.conditional ≤ level) (hle : level ≤ primary) :
    Begins level [] :=
  ⟨_, _, derives_name hpos hle⟩

/-- What begins an expression of a level begins one of every looser level. -/
theorem Begun.loosen (h : Begins level' ks) (hle : level ≤ level')
    (hpos : Binding.conditional ≤ level) : Begins level ks :=
  h.within fun e _ hd => ⟨e, [], by simpa using hd.loosen hle hpos⟩

end Grammar

namespace Parser

open Grammar

variable {α β : Type} {c c' : Cursor} {t : Tree} {ks ks₀ : List Kind}

/-- A parser of expressions that is prompt about what begins an expression. -/
def PromptExpr (p : Parser Tree) : Prop :=
  ∀ {c}, c.macrosOn = false → Prompt (Begins Binding.conditional) p c

/-! ## Items -/

/-- A parser that is prompt about what it reads. -/
structure PromptFor (p : Parser α) (spells : β → List Kind → Prop) : Prop where
  reads : ∀ {c a c'}, c.macrosOn = false → p c = .ok a c' → ∃ ks, c.Reads ks c' ∧ ∃ b, spells b ks
  prompt : ∀ {c}, c.macrosOn = false → Prompt (Begun spells) p c

variable {item expr : Parser α} {spells : β → List Kind → Prop} {close : Symbol}

/-- Items that were read up to their closing symbol. -/
theorem PromptFor.reads_items (hi : PromptFor item spells) (hm : c.macrosOn = false)
    {as : List α} (h : items item close c = .ok as c') : ∃ ks, c.Reads ks c' := by
  obtain ⟨ks, hreads, -⟩ : ∃ ks, c.Reads (ks ++ [.symbol close]) c' ∧
      Separated (fun _ ks => ∃ b, spells b ks) as ks := items_sound hi.reads hm h
  exact ⟨_, hreads⟩

/-- Items are read up to a token that no list of items allows. -/
theorem PromptFor.items (hi : PromptFor item spells) (close : Symbol)
    (hm : c.macrosOn = false) : Prompt (Begun (Separated spells)) (items item close) c := by
  -- The induction is on the tokens left, which become fewer with every item and its comma.
  induction hn : c.rest.length using Nat.strongRecOn generalizing c with
  | _ n ih =>
  by_cases hat : c.at? (.symbol close) = true
  · refine Prompt.congr (q := do expect close; return []) ?_ fun rest hhead =>
      run_items_close (by rwa [Cursor.at?_onto hhead])
    refine (prompt_expect close ⟨[], [], .nil⟩).bind fun _ c₁ he => ?_
    exact ⟨_, expect_eq_ok he, prompt_pure []⟩
  · refine Prompt.congr (q := itemsOnward item close) ?_ fun rest hhead =>
      run_items_item (fun hm h => (hi.reads hm h).imp fun _ => And.left) hm
        (by rwa [Cursor.at?_onto hhead])
    -- An item that has begun is the last one as far as the tokens go.
    refine ((hi.prompt hm).mono fun ks hks => hks.within fun b _ hb =>
      ⟨[b], [], by simpa using Separated.last hb⟩).bind fun a c₁ ha => ?_
    obtain ⟨ks₁, hr₁, b, hb⟩ := hi.reads hm ha
    refine ⟨ks₁, hr₁, (prompt_skip .comma).bind fun s c₂ hs => ?_⟩
    rcases skip_eq_ok hs with ⟨rfl, hr₂⟩ | ⟨rfl, rfl, -⟩
    · have hm₂ : c₂.macrosOn = false := by rw [hr₂.macrosOn, hr₁.macrosOn, hm]
      have hlt : c₂.rest.length < n := by
        have hfirst := hr₁.length_rest
        have hsecond := hr₂.length_rest
        rw [List.length_singleton] at hsecond
        omega
      refine ⟨_, hr₂, ((ih _ hlt hm₂ rfl).mono fun ks hks => ?_).bind fun as c₃ has => ?_⟩
      · exact hks.within fun bs _ hbs => ⟨b :: bs, [], by simpa using Separated.more hb hbs⟩
      · obtain ⟨ks₃, hr₃⟩ := hi.reads_items hm₂ has
        exact ⟨ks₃, hr₃, prompt_pure _⟩
    · refine ⟨[], .refl _, (prompt_expect close ?_).bind fun _ c₂ he => ?_⟩
      · exact ⟨[b], [], by simpa using Separated.last hb⟩
      · exact ⟨_, expect_eq_ok he, prompt_pure _⟩

/-- A key is followed by a colon and a value. -/
theorem promptFor_entry {expr : Parser Tree} (hs : SoundExpr false expr) (he : PromptExpr expr) :
    PromptFor (do let key ← expr; expect .colon; let value ← expr; return (key, value))
      (IsEntry (IsExpr false)) where
  reads hm h := (Level.entry_sound hs hm h).imp fun _ ⟨hr, hentry⟩ => ⟨hr, _, hentry⟩
  prompt {c} hm := by
    -- A key that has begun misses a colon and a value, for which a name will do.
    have hname : IsExpr false (.ident () "x") [.ident "x"] := derives_name (by decide) (by decide)
    refine ((he hm).mono fun ks hks => hks.within fun key more hd =>
      ⟨(key, _), [.symbol .colon, .ident "x"], ks ++ more, _, rfl, hd, hname⟩).bind
        fun key c₁ hk => ?_
    obtain ⟨ks₁, hr₁, hd₁⟩ := hs hm hk
    refine ⟨ks₁, hr₁, (prompt_expect .colon ?_).bind fun _ c₂ hcolon => ?_⟩
    · exact ⟨(key.bare, _), [.symbol .colon, .ident "x"], ks₁, _, by simp, hd₁, hname⟩
    have hr₂ := expect_eq_ok hcolon
    have hm₂ : c₂.macrosOn = false := by rw [hr₂.macrosOn, hr₁.macrosOn, hm]
    refine ⟨_, hr₂, ((he hm₂).mono fun ks hks => ?_).bind fun value c₃ hv => ?_⟩
    · exact hks.within fun value more hd =>
        ⟨(key.bare, value), [], ks₁, ks ++ more, by simp, hd₁, hd⟩
    · obtain ⟨ks₃, hr₃, -⟩ := hs hm₂ hv
      exact ⟨ks₃, hr₃, prompt_pure _⟩

/-- A sound and prompt parser of expressions reads what an expression has to be. -/
theorem promptFor_expr {expr : Parser Tree} (hs : SoundExpr false expr) (he : PromptExpr expr) :
    PromptFor expr (IsExpr false) where
  reads hm h := (hs hm h).imp fun _ ⟨hr, hd⟩ => ⟨hr, _, hd⟩
  prompt hm := he hm

/-! ## What stands alone -/

variable {V : List Kind → Prop} {name : String} {args : List Tree} {span : Span}

/-- Without macros every call is a node. -/
theorem prompt_globalCall (hm : c.macrosOn = false) : Prompt V (globalCall name args span) c :=
  (prompt_node (fun m => .call m name args) span).congr fun rest _ => by
    have hrest : (c.onto rest).macrosOn = false := hm
    rw [globalCall, bind_of_ok (run_get _), hrest]
    rfl

/-- Without macros every call on a target is a node. -/
theorem prompt_receiverCall {target : Tree} (hm : c.macrosOn = false) :
    Prompt V (receiverCall target name args span) c :=
  (prompt_node (fun m => .invoke m target name args) span).congr fun rest _ => by
    have hrest : (c.onto rest).macrosOn = false := hm
    rw [receiverCall, bind_of_ok (run_get _), hrest]

/-- A sign is taken into a constant or becomes a node, whatever comes next. -/
theorem prompt_unaryNode {op : UnaryOp} {operand : Tree} :
    Prompt V (unaryNode op operand span) c := by
  unfold unaryNode
  dsimp only
  split <;> exact prompt_node _ _

/-- Items in brackets, and what is made of them and of the place where they end. -/
theorem PromptFor.enclosed (hi : PromptFor item spells) (close : Symbol)
    {f : List α → Span → Parser Tree} (hm : c.macrosOn = false)
    (hV : ∀ ks, Begun (Separated spells) ks → V ks)
    (hf : ∀ {V as previous c}, c.macrosOn = false → Prompt V (f as previous) c) :
    Prompt V (do let as ← Parser.items item close; f as (← get).previous) c := by
  refine ((hi.items close hm).mono hV).bind fun as c₁ has => ?_
  obtain ⟨ks₁, hr₁⟩ := hi.reads_items hm has
  exact ⟨ks₁, hr₁, prompt_previous (f := f as) (hf (by rw [hr₁.macrosOn, hm]))⟩

/-- The first token of what stands alone, if there is one that does. -/
theorem primary_cases (c : Cursor) :
    (∃ value span tail, c.rest = ⟨.literal value, span⟩ :: tail) ∨
    (∃ name span tail, c.rest = ⟨.ident name, span⟩ :: tail) ∨
    (∃ span tail, c.rest = ⟨.symbol .leftParen, span⟩ :: tail) ∨
    (∃ span tail, c.rest = ⟨.symbol .leftBracket, span⟩ :: tail) ∨
    (∃ span tail, c.rest = ⟨.symbol .leftBrace, span⟩ :: tail) ∨
    ∀ expr rest, rest.head? = c.rest.head? →
      Level.primary expr (c.onto rest) = failWith Cursor.unexpectedError (c.onto rest) := by
  cases hr : c.rest with
  -- Without a token the end mark is unexpected.
  | nil =>
    refine .inr (.inr (.inr (.inr (.inr fun expr rest hhead => ?_))))
    rw [List.head?_nil, List.head?_eq_none_iff] at hhead
    rw [hhead]
    rfl
  | cons t tail =>
    obtain ⟨k, span⟩ := t
    cases k with
    | literal value => exact .inl ⟨value, span, tail, rfl⟩
    | ident name => exact .inr (.inl ⟨name, span, tail, rfl⟩)
    | symbol s =>
      cases s with
      | leftParen => exact .inr (.inr (.inl ⟨span, tail, rfl⟩))
      | leftBracket => exact .inr (.inr (.inr (.inl ⟨span, tail, rfl⟩)))
      | leftBrace => exact .inr (.inr (.inr (.inr (.inl ⟨span, tail, rfl⟩))))
      | _ =>
        refine .inr (.inr (.inr (.inr (.inr fun expr rest hhead => ?_))))
        obtain ⟨tail', rfl⟩ := List.head?_eq_some_iff.1 hhead
        rfl
    | _ =>
      refine .inr (.inr (.inr (.inr (.inr fun expr rest hhead => ?_))))
      obtain ⟨tail', rfl⟩ := List.head?_eq_some_iff.1 hhead
      rfl

/-- The arguments of a call, up to its closing bracket. -/
theorem begins_call (h : Begun (Separated (IsExpr false)) ks) :
    Begins Grammar.primary (.ident name :: .symbol .leftParen :: ks) :=
  h.within fun args _ hargs => by
    have hcall : globalCall? false name args = some (.call () name args) := by simp [globalCall?]
    exact ⟨.call () name args, [.symbol .rightParen],
      by simpa using Derives.call (derives_items_iff.2 hargs) hcall⟩

/-- What stands alone goes wrong at its first token, or within its brackets. -/
theorem primary_prompt {expr : Parser Tree} (hs : SoundExpr false expr) (he : PromptExpr expr)
    (hm : c.macrosOn = false) : Prompt (Begins Grammar.primary) (Level.primary expr) c := by
  have hitems := promptFor_expr hs he
  have hentries := promptFor_entry hs he
  have hskip : c.skip.macrosOn = false := c.macrosOn_skip.trans hm
  rcases primary_cases c with ⟨value, span, tail, hr⟩ | ⟨name, span, tail, hr⟩ | ⟨span, tail, hr⟩ |
    ⟨span, tail, hr⟩ | ⟨span, tail, hr⟩ | hother
  · exact prompt_first hr (fun _ => rfl) (prompt_node (fun m => .literal m value) span)
  · refine prompt_first (q := do
      if ← skip .leftParen then
        let args ← items expr .rightParen
        globalCall name args (span.cover (← get).previous)
      else node (fun m => .ident m name) span) hr (fun _ => rfl) ?_
    refine (prompt_skip .leftParen).bind fun b c₁ hcall => ?_
    rcases skip_eq_ok hcall with ⟨rfl, hr₁⟩ | ⟨rfl, rfl, -⟩
    · have hm₁ : c₁.macrosOn = false := by rw [hr₁.macrosOn, hskip]
      exact ⟨_, hr₁, hitems.enclosed .rightParen
        (f := fun args previous => globalCall name args (span.cover previous)) hm₁
        (fun _ => begins_call) prompt_globalCall⟩
    · exact ⟨[], .refl _, prompt_node (fun m => .ident m name) span⟩
  · refine prompt_first (q := do let inner ← expr; expect .rightParen; return inner) hr
      (fun _ => rfl) ?_
    -- What has begun in parentheses misses the closing one.
    refine ((he hskip).mono fun ks hks => hks.within fun e _ hd =>
      ⟨e, [.symbol .rightParen], by simpa using hd.parens⟩).bind fun inner c₁ hi => ?_
    obtain ⟨ks₁, hr₁, hd₁⟩ := hs hskip hi
    refine ⟨ks₁, hr₁, (prompt_expect .rightParen ?_).bind fun _ c₂ hclose => ?_⟩
    · exact ⟨inner.bare, [.symbol .rightParen], by simpa using hd₁.parens⟩
    · exact ⟨_, expect_eq_ok hclose, prompt_pure _⟩
  · refine prompt_first (q := do
      let elements ← items expr .rightBracket
      node (fun m => .list m elements) (span.cover (← get).previous)) hr (fun _ => rfl) ?_
    exact hitems.enclosed .rightBracket
      (f := fun elements previous => node (fun m => Expr.list m elements) (span.cover previous))
      hskip (fun ks hks => hks.within fun es _ hes =>
        ⟨.list () es, [.symbol .rightBracket], by simpa using (derives_items_iff.2 hes).list⟩)
      fun _ => prompt_node _ _
  · refine prompt_first (q := do
      let entries ← items (do
        let key ← expr
        expect .colon
        let value ← expr
        return (key, value)) .rightBrace
      node (fun m => .map m entries) (span.cover (← get).previous)) hr (fun _ => rfl) ?_
    exact hentries.enclosed .rightBrace
      (f := fun entries previous => node (fun m => Expr.map m entries) (span.cover previous))
      hskip (fun ks hks => hks.within fun es _ hes =>
        ⟨.map () es, [.symbol .rightBrace], by simpa using (derives_entries_iff.2 hes).map⟩)
      fun _ => prompt_node _ _
  · -- Before a token that begins nothing, nothing has been consumed.
    refine (prompt_failWith Cursor.unexpectedError
      (begins_nil (by decide) (by decide)) (fun _ => span_of_head?) fun rest hhead => ?_).congr
      (hother expr)
    rw [Cursor.unexpectedError, Cursor.kind_onto hhead, Cursor.span_onto hhead]
    rfl

/-! ## The parsers of one budget -/

namespace Level

/-- The parsers of a budget are prompt about what they read, with macros off. A chain goes on from
what was read of it. -/
structure Prompts (l : Level) : Prop where
  sound : l.Sound false
  expr : PromptExpr l.expr
  unary : ∀ {c}, c.macrosOn = false → Prompt (Begins Binding.unary) l.unary c
  memberChain : ∀ {target c ks₀}, c.macrosOn = false →
    Derives false (.expr Binding.member target.bare) ks₀ →
    Prompt (fun ks => Begins Binding.member (ks₀ ++ ks)) (l.memberChain target) c
  binaryChain : ∀ {least left c level ks₀}, c.macrosOn = false → Binding.conditional ≤ least →
    Derives false (.expr level left.bare) ks₀ → EndsChain (level + 1) c.kinds →
    Prompt (fun ks => Begins least (ks₀ ++ ks)) (l.binaryChain least left) c

variable {l : Level} {below : Option Level} {target left : Tree} {least level : Nat}

/-- A chain of operators starts with an operand, which is tighter than all of them. -/
theorem Prompts.binary (hl : l.Prompts) (hm : c.macrosOn = false)
    (hpos : Binding.conditional ≤ least) (hle : least ≤ Binding.unary) :
    Prompt (Begins least) (l.binary least) c := by
  refine ((hl.unary hm).mono fun ks hks => hks.loosen hle hpos).bind fun u c₁ hu => ?_
  obtain ⟨ks₀, hr, hd⟩ := hl.sound.unary hm hu
  have hend : EndsChain (Binding.unary + 1) c₁.kinds := fun k rest op level _ hi =>
    Nat.lt_of_le_of_lt hi.le_multiplicative (by decide)
  exact ⟨ks₀, hr, hl.binaryChain (by rw [hr.macrosOn, hm]) hpos hd hend⟩

/-- Each branch of a conditional can be missed, and so can the colon between them. -/
theorem Prompts.conditional (hl : l.Prompts) : PromptExpr l.conditional := by
  intro c hm
  have hname : IsExpr false (.ident () "x") [.ident "x"] := derives_name (by decide) (by decide)
  have hbranch : ∀ {c : Cursor}, c.macrosOn = false →
      Prompt (Begins Binding.or) (l.binary Binding.or) c := fun hm =>
    hl.binary hm (by decide) (by decide)
  refine ((hbranch hm).mono fun ks hks => hks.loosen (by decide) (by decide)).bind
    fun condition c₁ hc => ?_
  obtain ⟨ks₁, hr₁, hd₁, -⟩ := hl.sound.binary hm hc (by decide) (by decide)
  refine ⟨ks₁, hr₁, (prompt_skip .question).bind fun b c₂ hs => ?_⟩
  rcases skip_eq_ok hs with ⟨rfl, hr₂⟩ | ⟨rfl, rfl, -⟩
  · have hm₂ : c₂.macrosOn = false := by rw [hr₂.macrosOn, hr₁.macrosOn, hm]
    refine ⟨_, hr₂, ((hbranch hm₂).mono fun ks hks => ?_).bind fun yes c₃ hy => ?_⟩
    · -- A first branch lacks the second one at most.
      exact hks.within fun e _ hd => ⟨.call () Operator.conditional [condition.bare, e, _],
        [.symbol .colon, .ident "x"], by simpa using hd₁.conditional hd hname⟩
    obtain ⟨ks₃, hr₃, hd₃, -⟩ := hl.sound.binary hm₂ hy (by decide) (by decide)
    refine ⟨ks₃, hr₃, (prompt_expect .colon ?_).bind fun _ c₄ hcolon => ?_⟩
    · exact ⟨.call () Operator.conditional [condition.bare, yes.bare, _],
        [.symbol .colon, .ident "x"], by simpa using hd₁.conditional hd₃ hname⟩
    have hr₄ := expect_eq_ok hcolon
    have hm₄ : c₄.macrosOn = false := by rw [hr₄.macrosOn, hr₃.macrosOn, hm₂]
    refine ⟨_, hr₄, ((hl.expr hm₄).mono fun ks hks => ?_).bind fun no c₅ hn => ?_⟩
    · exact hks.within fun e _ hd => ⟨.call () Operator.conditional [condition.bare, yes.bare, e],
        [], by simpa using hd₁.conditional hd₃ hd⟩
    · obtain ⟨ks₅, hr₅, -⟩ := hl.sound.expr hm₄ hn
      exact ⟨ks₅, hr₅, prompt_node _ _⟩
  · exact ⟨[], .refl _, prompt_pure condition⟩

/-- A name after a point would select a field. -/
theorem begins_field {e : Expr Unit} (hd₀ : Derives false (.expr Binding.member e) ks₀) :
    Begins Binding.member (ks₀ ++ [.symbol .dot]) :=
  ⟨.select () e "x" false, [.ident "x"], by simpa using hd₀.select⟩

/-- After a point a name is missed, or something within the brackets after that name. -/
theorem Prompts.field (hl : l.Prompts) (hm : c.macrosOn = false)
    (hd₀ : Derives false (.expr Binding.member target.bare) ks₀) :
    Prompt (fun ks => Begins Binding.member (ks₀ ++ .symbol .dot :: ks)) (l.field target) c := by
  have hitems := promptFor_expr hl.sound.expr hl.expr
  have hskip : c.skip.macrosOn = false := c.macrosOn_skip.trans hm
  cases hr : c.rest with
  | nil =>
    refine prompt_stuck (e := none) (begins_field hd₀) (by simp [hr]) fun rest hhead => ?_
    rw [hr, List.head?_nil, List.head?_eq_none_iff] at hhead
    rw [hhead]
    exact ⟨_, rfl⟩
  | cons t tail =>
    obtain ⟨k, span⟩ := t
    have hother (hk : ∀ name, k ≠ .ident name) :
        Prompt (fun ks => Begins Binding.member (ks₀ ++ .symbol .dot :: ks)) (l.field target)
          c := by
      -- The token is consumed before the error about it is reported.
      refine prompt_stuck (e := some (.message ("expected field name, found " ++ k.describe) span))
        (begins_field hd₀) (fun t ht => ?_) fun rest hhead => ?_
      · rw [hr] at ht
        exact ⟨_, rfl, congrArg Token.span (Option.some.inj ht)⟩
      · rw [hr] at hhead
        obtain ⟨tail', rfl⟩ := List.head?_eq_some_iff.1 hhead
        cases k with
        | ident name => exact absurd rfl (hk name)
        | _ => exact ⟨_, rfl⟩
    cases k with
    | ident name =>
      refine prompt_first (q := do
        if ← Parser.skip .leftParen then
          let args ← items l.expr .rightParen
          receiverCall target name args (target.mark.span.cover (← get).previous)
        else node (fun m => .select m target name false) (target.mark.span.cover span)) hr
        (fun _ => rfl) ?_
      refine (prompt_skip .leftParen).bind fun b c₁ hcall => ?_
      rcases skip_eq_ok hcall with ⟨rfl, hr₁⟩ | ⟨rfl, rfl, -⟩
      · have hm₁ : c₁.macrosOn = false := by rw [hr₁.macrosOn, hskip]
        refine ⟨_, hr₁, hitems.enclosed .rightParen
          (f := fun args previous =>
            receiverCall target name args (target.mark.span.cover previous))
          hm₁ (fun ks hks => ?_) prompt_receiverCall⟩
        exact hks.within fun args _ hargs => ⟨.invoke () target.bare name args,
          [.symbol .rightParen],
          by simpa using hd₀.invoke (derives_items_iff.2 hargs) (by simp [receiverCall?])⟩
      · exact ⟨[], .refl _, prompt_node (fun m => .select m target name false)
          (target.mark.span.cover span)⟩
    | _ => exact hother nofun

/-- An index that has begun misses the rest of it and the closing bracket. -/
theorem Prompts.index (hl : l.Prompts) (hm : c.macrosOn = false)
    (hd₀ : Derives false (.expr Binding.member target.bare) ks₀) :
    Prompt (fun ks => Begins Binding.member (ks₀ ++ .symbol .leftBracket :: ks))
      (l.index target) c := by
  refine ((hl.expr hm).mono fun ks hks => ?_).bind fun i c₁ hi => ?_
  · exact hks.within fun e _ hd => ⟨.call () Operator.index [target.bare, e],
      [.symbol .rightBracket], by simpa using hd₀.index hd⟩
  -- An index that is read misses the closing bracket.
  obtain ⟨ks₁, hr₁, hd₁⟩ := hl.sound.expr hm hi
  refine ⟨ks₁, hr₁, (prompt_expect .rightBracket ?_).bind fun _ c₂ hclose => ?_⟩
  · exact ⟨.call () Operator.index [target.bare, i.bare], [.symbol .rightBracket],
      by simpa using hd₀.index hd₁⟩
  · exact ⟨_, expect_eq_ok hclose, prompt_previous (f := fun previous =>
      node (fun m => .call m Operator.index [target, i]) (target.mark.span.cover previous))
      (prompt_node _ _)⟩

/-! ## From one budget to the next -/

/-- A whole expression is prompt, if those of the level below are. -/
theorem ofBelow_expr_prompt (hb : ∀ l, below = some l → l.Prompts) :
    PromptExpr (ofBelow below).expr := by
  intro c hm
  cases below with
  | none => exact prompt_tooDeep (run_expr_none c)
  | some l => exact (hb l rfl).conditional hm

/-- A chain of members goes wrong within a link, since it may end before any other token. -/
theorem ofBelow_memberChain_prompt (hb : ∀ l, below = some l → l.Prompts)
    (hm : c.macrosOn = false) (hd : Derives false (.expr Binding.member target.bare) ks₀) :
    Prompt (fun ks => Begins Binding.member (ks₀ ++ ks)) ((ofBelow below).memberChain target)
      c := by
  by_cases hk : c.kind = .symbol .dot ∨ c.kind = .symbol .leftBracket
  · cases below with
    | none => exact prompt_tooDeep (run_memberChain_none hk)
    | some l =>
      have hl := hb l rfl
      have hne : c.kind ≠ .eof := by rcases hk with hk | hk <;> simp [hk]
      obtain ⟨t, tail, hr, ht⟩ := Cursor.exists_rest_of_kind hne
      have hskip : c.skip.macrosOn = false := c.macrosOn_skip.trans hm
      -- One link, then the rest of the chain with the budget below.
      have link {p : Tree → Parser Tree}
          (hp : Prompt (fun ks => Begins Binding.member (ks₀ ++ t.kind :: ks)) (p target) c.skip)
          (hlink : ∀ {t₁ c₁}, p target c.skip = .ok t₁ c₁ → ∃ ks₁, c.skip.Reads ks₁ c₁ ∧
            Derives false (.expr Binding.member t₁.bare) (ks₀ ++ t.kind :: ks₁)) :
          Prompt (fun ks => Begins Binding.member (ks₀ ++ t.kind :: ks))
            (p target >>= l.memberChain) c.skip := by
        refine hp.bind fun t₁ c₁ h₁ => ?_
        obtain ⟨ks₁, hr₁, hd₁⟩ := hlink h₁
        refine ⟨ks₁, hr₁, (hl.memberChain (by rw [hr₁.macrosOn, hskip]) hd₁).mono fun ks hks => ?_⟩
        simpa using hks
      rcases hk with hk | hk
      · rw [hk] at ht
        refine prompt_first hr (fun tail' => run_memberChain_dot ht) (link ?_ ?_)
        · exact ht ▸ hl.field hskip hd
        · exact fun h₁ => ht ▸ field_sound hl.sound hskip hd h₁
      · rw [hk] at ht
        refine prompt_first hr (fun tail' => run_memberChain_bracket ht) (link ?_ ?_)
        · exact ht ▸ hl.index hskip hd
        · exact fun h₁ => ht ▸ index_sound hl.sound hskip hd h₁
  · rw [not_or] at hk
    refine prompt_stay (a := target) c.nextId fun rest hhead => ?_
    rw [← Cursor.kind_onto hhead] at hk
    exact run_memberChain_stop hk.1 hk.2

/-- An operand goes wrong behind its signs. -/
theorem ofBelow_unary_prompt (hb : ∀ l, below = some l → l.Prompts) (hm : c.macrosOn = false) :
    Prompt (Begins Binding.unary) (ofBelow below).unary c := by
  cases hop : UnaryOp.ofKind? c.kind with
  | none =>
    -- Without a sign it is a chain of members of this budget.
    have hsound : SoundExpr false (ofBelow below).expr :=
      ofBelow_expr_sound fun l h => (hb l h).sound
    refine Prompt.congr (q := primary (ofBelow below).expr >>= (ofBelow below).memberChain) ?_
      fun rest hhead => run_unary_member (by rwa [Cursor.kind_onto hhead])
    refine ((primary_prompt hsound (ofBelow_expr_prompt hb) hm).mono fun ks hks =>
      hks.loosen (by decide) (by decide)).bind fun t₁ c₁ hp => ?_
    obtain ⟨ks₁, hr₁, hd₁⟩ := primary_sound hsound hm hp
    refine ⟨ks₁, hr₁, (ofBelow_memberChain_prompt hb (by rw [hr₁.macrosOn, hm])
      (hd₁.loosen (by decide) (by decide))).mono fun ks hks => ?_⟩
    exact hks.loosen (by decide) (by decide)
  | some op =>
    cases below with
    | none => exact prompt_tooDeep (run_unary_none hop)
    | some l =>
      have hl := hb l rfl
      obtain ⟨t, tail, hr, ht⟩ := Cursor.exists_rest_of_kind (c := c) fun he => by
        simp [he, UnaryOp.ofKind?] at hop
      have hskip : c.skip.macrosOn = false := c.macrosOn_skip.trans hm
      have hop' : UnaryOp.ofKind? t.kind = some op := ht ▸ hop
      refine prompt_first (q := l.unary >>= fun operand =>
        unaryNode op operand (t.span.cover operand.mark.span)) hr
        (fun tail' => run_unary_operator hop') ?_
      refine ((hl.unary hskip).mono fun ks hks => ?_).bind fun operand c₁ h₁ => ?_
      · rw [ht]
        unfold UnaryOp.ofKind? at hop
        split at hop
        · rename_i hk
          rw [hk]
          exact hks.within fun e _ hd => ⟨_, [], by simpa using hd.not⟩
        · rename_i hk
          rw [hk]
          exact hks.within fun e _ hd => ⟨_, [], by simpa using hd.negate⟩
        · cases hop
      · obtain ⟨ks₁, hr₁, -⟩ := hl.sound.unary hskip h₁
        exact ⟨ks₁, hr₁, prompt_unaryNode⟩

/-- A chain of operators goes wrong within a right operand, since it may end before any token that
is no operator of its level. -/
theorem ofBelow_binaryChain_prompt (hb : ∀ l, below = some l → l.Prompts)
    (hm : c.macrosOn = false) (hpos : Binding.conditional ≤ least)
    (hd : Derives false (.expr level left.bare) ks₀) (hend : EndsChain (level + 1) c.kinds) :
    Prompt (fun ks => Begins least (ks₀ ++ ks)) ((ofBelow below).binaryChain least left) c := by
  cases hop : BinaryOp.ofKind? c.kind with
  | none =>
    refine prompt_stay (a := left) c.nextId fun rest hhead => ?_
    rw [← Cursor.kind_onto hhead] at hop
    exact run_binaryChain_stop hop
  | some op =>
    by_cases hlt : op.binding < least
    · refine prompt_stay (a := left) c.nextId fun rest hhead => ?_
      rw [← Cursor.kind_onto hhead] at hop
      exact run_binaryChain_loose hop hlt
    · have hge := Nat.not_lt.1 hlt
      cases below with
      | none => exact prompt_tooDeep (run_binaryChain_none hop hge)
      | some l =>
        have hl := hb l rfl
        obtain ⟨k, ks, hks, hi⟩ := kinds_of_operator hop
        obtain ⟨span, tail, hr⟩ := Cursor.rest_of_kinds hks
        have hskip : c.skip.macrosOn = false := c.macrosOn_skip.trans hm
        have hk : BinaryOp.ofKind? k = some op := (infix_iff.1 hi).1
        -- What was read so far is a left operand of this operator.
        have hleft : Derives false (.expr op.binding left.bare) ks₀ :=
          hd.loosen (Nat.le_of_lt_succ (hend k ks op _ hks hi)) (Nat.le_trans hpos hge)
        refine prompt_first (q := l.binary (op.binding + 1) >>= fun right =>
          node (fun m => .call m op.function [left, right])
            (left.mark.span.cover right.mark.span) >>= l.binaryChain least) hr
          (fun tail' => run_binaryChain_link hk hge) ?_
        have hright : op.binding + 1 ≤ Binding.unary := Nat.succ_le_succ hi.le_multiplicative
        refine ((hl.binary hskip (Nat.le_add_left 1 _) hright).mono fun ks hks => ?_).bind
          fun right c₁ h₁ => ?_
        · exact hks.within fun e _ hd =>
            ⟨_, [], by simpa using (Derives.binary hi hleft hd).loosen hge hpos⟩
        obtain ⟨ks₁, hr₁, hd₁, hend₁⟩ := hl.sound.binary hskip h₁ (Nat.le_add_left 1 _) hright
        refine ⟨ks₁, hr₁, (prompt_node _ _).bind fun t₁ c₂ hn => ?_⟩
        obtain ⟨mark, rfl, hr₂⟩ := node_eq_ok hn
        have hd₂ : Derives false (.expr op.binding (Expr.call mark op.function [left, right]).bare)
            (ks₀ ++ k :: ks₁) := by simpa using .binary hi hleft hd₁
        have hchain := hl.binaryChain (by rw [hr₂.macrosOn, hr₁.macrosOn, hskip]) hpos hd₂
          ((hr₂.rest_eq rfl : c₂.kinds = c₁.kinds) ▸ hend₁)
        exact ⟨[], hr₂, hchain.mono fun ks hks => by simpa using hks⟩

/-- The parsers of a budget are prompt if those of the budget below are. -/
theorem ofBelow_prompts (hb : ∀ l, below = some l → l.Prompts) : (ofBelow below).Prompts where
  sound := ofBelow_sound fun l h => (hb l h).sound
  expr := ofBelow_expr_prompt hb
  unary := ofBelow_unary_prompt hb
  memberChain := ofBelow_memberChain_prompt hb
  binaryChain := ofBelow_binaryChain_prompt hb

end Level

/-- The parsers of every budget are prompt. -/
theorem level_prompts (budget : Nat) : (level budget).Prompts := by
  induction budget with
  | zero => exact Level.ofBelow_prompts fun l h => by cases h
  | succ budget ih => exact Level.ofBelow_prompts fun l h => by cases h; exact ih

end Parser

namespace Expr

open Grammar CelShell.Parser

variable {tokens : List Token} {ks : List Kind} {err : SyntaxError}

/-! ## The first impossible token -/

/-- Tokens that begin an expression and the end mark after it. -/
def Viable (ks : List Kind) : Prop :=
  ∃ e sentence, Derives false (.expr Binding.conditional e) sentence ∧ ks <+: sentence ++ [.eof]

/-- An expression that has begun begins one with its end mark. -/
theorem viable_of_begins (h : Begins Binding.conditional ks) : Viable ks := by
  obtain ⟨e, more, hd⟩ := h
  exact ⟨e, ks ++ more, hd, more ++ [.eof], by rw [List.append_assoc]⟩

/-- An error is about the token after some that begin an expression, and it comes up again with any
other tokens behind that one. -/
theorem exists_stuck_of_ofTokens (heof : Kind.eof ∈ tokens.map Token.kind)
    (h : ofTokens tokens false = .error err) (hlimit : ¬err.IsNestingLimit) :
    ∃ near t after, tokens = near ++ t :: after ∧ err.span = t.span ∧
      Begins Binding.conditional (near.map Token.kind) ∧
      ∀ more, ofTokens (near ++ t :: more) false = .error err := by
  have hprompt : Prompt (Begins Binding.conditional) (Parser.expr maxDepth)
      ⟨tokens, .dummy, 1, false⟩ := (level_prompts maxDepth).expr rfl
  unfold ofTokens at h
  cases hr : Parser.expr maxDepth ⟨tokens, .dummy, 1, false⟩ with
  | ok tree c' =>
    -- An expression ends before the last token.
    rw [hr] at h
    have hend : ¬c'.atEnd = true := fun hend => by simp [hend] at h
    have herr : c'.unexpectedError = err := Except.error.inj ((if_neg hend).symm.trans h)
    obtain ⟨near, hrest, hagain⟩ := hprompt.of_ok hr
    obtain ⟨ks, hreads, hd⟩ := expr_sound rfl hr
    obtain ⟨t, after, hafter, hkind⟩ := Cursor.exists_rest_of_kind (mt Cursor.atEnd_iff.2 hend)
    have hhead : c'.rest.head? = some t := by rw [hafter]; rfl
    refine ⟨near, t, after, hafter ▸ hrest, ?_, ?_, fun more => ?_⟩
    · rw [← herr]
      exact span_of_head? hhead
    · rw [hreads.map_kind_eq hrest]
      exact ⟨tree.bare, [], by rwa [List.append_nil]⟩
    · have hmore : (t :: more).head? = c'.rest.head? := hhead.symm
      have hrun : Parser.expr maxDepth ⟨near ++ t :: more, .dummy, 1, false⟩ =
          .ok tree (c'.onto (t :: more)) := hagain _ hmore
      have hend' : ¬(c'.onto (t :: more)).atEnd = true := by
        rw [Cursor.atEnd_iff] at hend ⊢
        rwa [Cursor.kind_onto hmore]
      have hsame : (c'.onto (t :: more)).unexpectedError = c'.unexpectedError := by
        rw [Cursor.unexpectedError, Cursor.kind_onto hmore, Cursor.span_onto hmore]
        rfl
      unfold ofTokens
      rw [hrun]
      exact (if_neg hend').trans (congrArg Except.error (hsame.trans herr))
  | error e c' =>
    rw [hr] at h
    -- The parser itself fails, at a token before which it has read a beginning.
    rcases hprompt.of_error hr with ⟨err', rfl, hdeep⟩ | ⟨near, stuck, ⟨hrest, habout, hagain⟩, hV⟩
    · exact absurd (Except.error.inj h ▸ hdeep) hlimit
    · cases stuck with
      | nil =>
        -- Without its end mark no expression holds all the tokens.
        have hall : tokens = near := by simpa using hrest
        obtain ⟨e', more, hd⟩ := hV
        rw [← hall] at hd
        exact absurd (List.mem_append_left more heof) hd.eof_not_mem
      | cons t after =>
        obtain ⟨err', rfl, hspan⟩ := habout t rfl
        have herr : err' = err := Except.error.inj h
        refine ⟨near, t, after, hrest, herr ▸ hspan, hV, fun more => ?_⟩
        obtain ⟨c₁, hrun⟩ := hagain (t :: more) rfl
        have hrun' : Parser.expr maxDepth ⟨near ++ t :: more, .dummy, 1, false⟩ =
          .error (some err') c₁ := hrun
        unfold ofTokens
        rw [hrun', herr]

/-- A syntax error points at the first impossible token. With macros off, an error in the tokens of
a text that is not about nesting is at a token such that those before it begin an expression with
its end mark, and those up to and including it do not. -/
theorem error_at_first_impossible (source : String) (tokens : List Token) (err : SyntaxError)
    (htokens : Token.list source = .ok tokens) (h : ofTokens tokens false = .error err)
    (hlimit : ¬err.IsNestingLimit) :
    ∃ near t after, tokens = near ++ t :: after ∧ err.span = t.span ∧
      Viable (near.map Token.kind) ∧ ¬Viable ((near ++ [t]).map Token.kind) := by
  obtain ⟨ks, hkinds, -⟩ := Scan.lexes_of_listFrom htokens
  have heof : Kind.eof ∈ tokens.map Token.kind := by simp [hkinds]
  obtain ⟨near, t, after, hsplit, hspan, hbegins, hagain⟩ :=
    exists_stuck_of_ofTokens heof h hlimit
  refine ⟨near, t, after, hsplit, hspan, viable_of_begins hbegins, ?_⟩
  rintro ⟨e, sentence, hd, more, hmore⟩
  -- An expression that begins with all these tokens would be parsed, yet the same error comes up.
  have hsentence : (near ++ t :: more.map fun k => ⟨k, .dummy⟩).map Token.kind =
      sentence ++ [.eof] := by
    rw [← hmore]
    simp [Function.comp_def]
  rcases ofTokens_of_derives hsentence hd with ⟨tree, hok, -⟩ | ⟨err', herror, hdeep⟩
  · rw [hagain] at hok
    cases hok
  · rw [hagain] at herror
    exact hlimit (Except.error.inj herror ▸ hdeep)

/-- A branch of a conditional in the arguments of a call, with another number behind it. -/
def unfinished : String := "f(a, x ? 1 2)"

/-- The second number is impossible. -/
theorem error_at_first_impossible_number :
    ∃ tokens err, Token.list unfinished = .ok tokens ∧ ofTokens tokens false = .error err ∧
      err.text = "Syntax error: expected ':', found '2'" ∧ ¬err.IsNestingLimit ∧
      ∃ near t after, tokens = near ++ t :: after ∧ err.span = t.span ∧
        Viable (near.map Token.kind) ∧ ¬Viable ((near ++ [t]).map Token.kind) := by
  have hrun : (Token.list unfinished).toOption.bind (fun tokens =>
      match ofTokens tokens false with
      | .ok _ => none
      | .error err => some err) =
      some (.expected (.symbol .colon) (.literal (.int 2)) ⟨⟨1, 12, 11⟩, ⟨1, 13, 12⟩⟩) := by
    decide +kernel
  cases htokens : Token.list unfinished with
  | error e => rw [htokens] at hrun; cases hrun
  | ok tokens =>
    rw [htokens, Except.toOption, Option.bind_some] at hrun
    cases h : ofTokens tokens false with
    | ok tree => rw [h] at hrun; cases hrun
    | error err =>
      rw [h, Option.some.injEq] at hrun
      have hlimit : ¬err.IsNestingLimit := by
        rw [hrun]
        rintro ⟨span, hmessage⟩
        cases hmessage
      refine ⟨tokens, err, rfl, h, ?_, hlimit,
        error_at_first_impossible unfinished tokens err htokens h hlimit⟩
      rw [hrun]
      decide

end Expr

end CelShell
