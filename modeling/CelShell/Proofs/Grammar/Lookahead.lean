import CelShell.Proofs.Grammar.Completeness

/-!
# One token of lookahead

A run of a parser goes by the tokens that it consumes and by the one token after them. Whatever
comes behind that token, the run takes the same course, to the same result (`Parser.Passes`) or to
the same error (`Parser.FailsAt`). An error is about the token at which the run has come to a stop;
only the token after a point, which must be the name of a field, has been consumed by then.

`Parser.Prompt V p c` says this of the run of `p` from `c`, and that what the run has consumed
before the token of an error meets the condition `V`. Its rules follow the steps that parsers are
made of. The limit of nesting is exempt. The bound on the items of a list counts tokens far ahead,
but no run comes to it (`run_itemsUpTo_item`).
-/

namespace CelShell

namespace Cursor

/-- The cursor with other tokens ahead of it. -/
def onto (c : Cursor) (rest : List Token) : Cursor := { c with rest }

variable {c c' : Cursor} {near rest rest' : List Token} {ks : List Kind}

/-- What is consumed of two runs of tokens comes to the same token. -/
theorem head?_append_congr (h : rest.head? = rest'.head?) :
    (near ++ rest).head? = (near ++ rest').head? := by
  cases near with
  | nil => exact h
  | cons => rfl

/-- The current token says the same with other tokens behind it. -/
theorem kind_onto (h : rest.head? = c.rest.head?) : (c.onto rest).kind = c.kind := by
  unfold kind onto
  cases rest <;> cases hr : c.rest <;> simp_all

/-- The place of the current token is the same with other tokens behind it. -/
theorem span_onto (h : rest.head? = c.rest.head?) : (c.onto rest).span = c.span := by
  unfold span onto
  cases rest <;> cases hr : c.rest <;> simp_all

/-- What the current token is compared with comes out the same with other tokens behind it. -/
theorem at?_onto (h : rest.head? = c.rest.head?) (k : Kind) :
    (c.onto rest).at? k = c.at? k := by
  unfold at? onto
  cases rest <;> cases hr : c.rest <;> simp_all

/-- The macros stay on or off as tokens are consumed. -/
theorem macrosOn_skip (c : Cursor) : c.skip.macrosOn = c.macrosOn := by
  unfold skip
  split <;> rfl

/-- A current token that is not the end is there to be consumed. -/
theorem exists_rest_of_kind (h : c.kind ≠ .eof) :
    ∃ t tail, c.rest = t :: tail ∧ t.kind = c.kind := by
  obtain ⟨ks, hks⟩ := kinds_of_kind h
  obtain ⟨span, tail, hr⟩ := rest_of_kinds hks
  exact ⟨_, tail, hr, rfl⟩

/-- The tokens consumed say what the cursor has read. -/
theorem Reads.map_kind_eq (h : c.Reads ks c') (hnear : c.rest = near ++ c'.rest) :
    near.map Token.kind = ks := by
  have hkinds : c.rest.map Token.kind = ks ++ c'.rest.map Token.kind := h.kinds
  rw [hnear, List.map_append] at hkinds
  exact List.append_cancel_right hkinds

/-- A cursor has as many tokens fewer as it has read. -/
theorem Reads.length_rest (h : c.Reads ks c') : c.rest.length = ks.length + c'.rest.length := by
  have hkinds : (c.rest.map Token.kind).length = (ks ++ c'.rest.map Token.kind).length :=
    congrArg List.length h.kinds
  rwa [List.length_append, List.length_map, List.length_map] at hkinds

end Cursor

namespace Parser

variable {α β : Type} {p q : Parser α} {c c' : Cursor} {V V' : List Kind → Prop}
  {e : Option SyntaxError} {near stuck rest : List Token} {t : Token} {ks : List Kind}

/-! ## Runs that look one token ahead -/

/-- A run consumes some tokens and succeeds, whatever comes behind the next one. -/
structure Passes (p : Parser α) (c : Cursor) (a : α) (c' : Cursor) (near : List Token) : Prop where
  rest : c.rest = near ++ c'.rest
  again : ∀ rest, rest.head? = c'.rest.head? → p (c.onto (near ++ rest)) = .ok a (c'.onto rest)

/-- A run comes through some tokens to one that it cannot take, and fails with an error about that
one, whatever comes behind it. -/
structure FailsAt (p : Parser α) (c : Cursor) (e : Option SyntaxError) (near stuck : List Token) :
    Prop where
  rest : c.rest = near ++ stuck
  about : ∀ t, stuck.head? = some t → ∃ err, e = some err ∧ err.span = t.span
  again : ∀ rest, rest.head? = stuck.head? → ∃ c', p (c.onto (near ++ rest)) = .error e c'

/-- A run looks one token ahead. If it fails, for another reason than its nesting, then at a token
before which it has consumed what meets a condition. -/
def Prompt (V : List Kind → Prop) (p : Parser α) (c : Cursor) : Prop :=
  match p c with
  | .ok a c' => ∃ near, Passes p c a c' near
  | .error e _ => (∃ err, e = some err ∧ err.IsNestingLimit) ∨
      ∃ near stuck, FailsAt p c e near stuck ∧ V (near.map Token.kind)

/-- A run that looks one token ahead and succeeds has consumed some tokens. -/
theorem Prompt.of_ok {a : α} (h : Prompt V p c) (hp : p c = .ok a c') :
    ∃ near, Passes p c a c' near := by
  rw [Prompt, hp] at h
  exact h

/-- A run that looks one token ahead and fails has met the nesting limit or a token that it cannot
take. -/
theorem Prompt.of_error (h : Prompt V p c) (hp : p c = .error e c') :
    (∃ err, e = some err ∧ err.IsNestingLimit) ∨
      ∃ near stuck, FailsAt p c e near stuck ∧ V (near.map Token.kind) := by
  rw [Prompt, hp] at h
  exact h

/-- What a failing run has consumed may meet a weaker condition. -/
theorem Prompt.mono (h : Prompt V p c) (hV : ∀ ks, V ks → V' ks) : Prompt V' p c := by
  unfold Prompt at h ⊢
  cases hp : p c with
  | ok a c' =>
    rw [hp] at h
    exact h
  | error e c' =>
    rw [hp] at h
    exact h.imp_right fun ⟨near, stuck, hfails, hnear⟩ => ⟨near, stuck, hfails, hV _ hnear⟩

/-- The current token decides which parser runs. -/
theorem Prompt.congr (h : Prompt V q c)
    (hpq : ∀ rest, rest.head? = c.rest.head? → p (c.onto rest) = q (c.onto rest)) :
    Prompt V p c := by
  have hstart : p c = q c := hpq c.rest rfl
  unfold Prompt at h ⊢
  rw [hstart]
  -- The tokens consumed and the one after them start both runs alike.
  cases hq : q c with
  | ok a c' =>
    rw [hq] at h
    obtain ⟨near, hrest, hagain⟩ := h
    refine ⟨near, hrest, fun rest hhead => ?_⟩
    rw [hpq _ (hrest ▸ Cursor.head?_append_congr hhead), hagain rest hhead]
  | error e c' =>
    rw [hq] at h
    refine h.imp_right ?_
    rintro ⟨near, stuck, ⟨hrest, habout, hagain⟩, hV⟩
    refine ⟨near, stuck, ⟨hrest, habout, fun rest hhead => ?_⟩, hV⟩
    rw [hpq _ (hrest ▸ Cursor.head?_append_congr hhead)]
    exact hagain rest hhead

/-- One parser after the other. What the first has read counts as consumed by both. -/
theorem Prompt.bind {f : α → Parser β} (h : Prompt V p c)
    (hf : ∀ a c', p c = .ok a c' →
      ∃ ks, c.Reads ks c' ∧ Prompt (fun more => V (ks ++ more)) (f a) c') :
    Prompt V (p >>= f) c := by
  unfold Prompt at h
  rw [Prompt, run_bind]
  cases hp : p c with
  | error e c₁ =>
    rw [hp] at h
    refine h.imp_right ?_
    rintro ⟨near, stuck, ⟨hrest, habout, hagain⟩, hV⟩
    refine ⟨near, stuck, ⟨hrest, habout, fun rest hhead => ?_⟩, hV⟩
    obtain ⟨c', hrun⟩ := hagain rest hhead
    exact ⟨c', by rw [run_bind, hrun]⟩
  | ok a c₁ =>
    rw [hp] at h
    obtain ⟨near₁, hrest₁, hagain₁⟩ := h
    obtain ⟨ks, hreads, hf⟩ := hf a c₁ hp
    -- The first parser does not see behind the token that the second begins with.
    have hboth : ∀ near₂ rest rest', c₁.rest = near₂ ++ rest' → rest.head? = rest'.head? →
        (p >>= f) (c.onto (near₁ ++ near₂ ++ rest)) = f a (c₁.onto (near₂ ++ rest)) := by
      intro near₂ rest rest' hrest hhead
      have hhead' : (near₂ ++ rest).head? = c₁.rest.head? :=
        hrest ▸ Cursor.head?_append_congr hhead
      rw [List.append_assoc, run_bind, hagain₁ _ hhead']
    unfold Prompt at hf
    dsimp only
    cases hq : f a c₁ with
    | ok b c₂ =>
      rw [hq] at hf
      obtain ⟨near₂, hrest₂, hagain₂⟩ := hf
      refine ⟨near₁ ++ near₂, by rw [hrest₁, hrest₂, List.append_assoc], fun rest hhead => ?_⟩
      rw [hboth near₂ rest c₂.rest hrest₂ hhead, hagain₂ rest hhead]
    | error e c₂ =>
      rw [hq] at hf
      refine hf.imp_right ?_
      rintro ⟨near₂, stuck, ⟨hrest₂, habout, hagain₂⟩, hV⟩
      refine ⟨near₁ ++ near₂, stuck, ⟨by rw [hrest₁, hrest₂, List.append_assoc], habout,
        fun rest hhead => ?_⟩, ?_⟩
      · rw [hboth near₂ rest stuck hrest₂ hhead]
        exact hagain₂ rest hhead
      · rwa [List.map_append, hreads.map_kind_eq hrest₁]

/-! ## Steps -/

/-- A run that consumes nothing and succeeds. -/
theorem prompt_stay {a : α} (id : Nat)
    (h : ∀ rest, rest.head? = c.rest.head? →
      p (c.onto rest) = .ok a { c.onto rest with nextId := id }) : Prompt V p c := by
  have hstart : p c = .ok a { c with nextId := id } := h c.rest rfl
  rw [Prompt, hstart]
  exact ⟨[], rfl, h⟩

/-- A run that consumes the current token and goes on. -/
theorem prompt_first {tail : List Token} (hrest : c.rest = t :: tail)
    (hpq : ∀ tail, p (c.onto (t :: tail)) = q (c.onto (t :: tail)).skip)
    (h : Prompt (fun more => V (t.kind :: more)) q c.skip) : Prompt V p c := by
  have hskip : ∀ tail, (c.onto (t :: tail)).skip = c.skip.onto tail := by
    intro tail
    unfold Cursor.skip Cursor.onto
    rw [hrest]
  have hstart : p c = q c.skip := by
    have hc : c = c.onto (t :: tail) := by rw [← hrest]; rfl
    rw [hc]
    exact hpq tail
  -- The current token is one of those consumed.
  have hbehind : c.rest = t :: c.skip.rest := by
    unfold Cursor.skip
    rw [hrest]
  unfold Prompt at h ⊢
  rw [hstart]
  cases hq : q c.skip with
  | ok a c' =>
    rw [hq] at h
    obtain ⟨near, hnear, hagain⟩ := h
    refine ⟨t :: near, by rw [hbehind, hnear, List.cons_append], fun rest hhead => ?_⟩
    rw [List.cons_append, hpq, hskip, hagain rest hhead]
  | error e c' =>
    rw [hq] at h
    refine h.imp_right ?_
    rintro ⟨near, stuck, ⟨hnear, habout, hagain⟩, hV⟩
    refine ⟨t :: near, stuck, ⟨by rw [hbehind, hnear, List.cons_append], habout,
      fun rest hhead => ?_⟩, hV⟩
    rw [List.cons_append, hpq, hskip]
    exact hagain rest hhead

/-- A run that fails at the current token. -/
theorem prompt_stuck (hV : V [])
    (habout : ∀ t, c.rest.head? = some t → ∃ err, e = some err ∧ err.span = t.span)
    (h : ∀ rest, rest.head? = c.rest.head? → ∃ c', p (c.onto rest) = .error e c') :
    Prompt V p c := by
  obtain ⟨c', hstart⟩ : ∃ c', p c = .error e c' := h c.rest rfl
  rw [Prompt, hstart]
  exact Or.inr ⟨[], c.rest, ⟨rfl, habout, h⟩, hV⟩

/-- The nesting limit is no matter of what comes next. -/
theorem prompt_tooDeep (h : p c = .error (some c.tooDeepError) c') : Prompt V p c := by
  rw [Prompt, h]
  exact Or.inl ⟨_, rfl, c.tooDeepError_isNestingLimit⟩

/-- A value is given without a look at any token. -/
theorem prompt_pure (a : α) : Prompt V (pure a : Parser α) c :=
  prompt_stay c.nextId fun _ _ => rfl

/-- A node is made without a look at any token. -/
theorem prompt_node (make : Mark → Tree) (span : Span) : Prompt V (node make span) c :=
  prompt_stay (a := make ⟨c.nextId, span⟩) (c.nextId + 1) fun _ _ => rfl

/-- The place of the token consumed last does not depend on what comes next. -/
theorem prompt_previous {f : Span → Parser β} (h : Prompt V (f c.previous) c) :
    Prompt V ((get : Parser Cursor) >>= fun d => f d.previous) c :=
  h.congr fun rest _ => by
    rw [bind_of_ok (run_get (c.onto rest))]
    rfl

/-- An error about the current token. -/
theorem prompt_failWith (error : Cursor → SyntaxError) (hV : V [])
    (hspan : ∀ t, c.rest.head? = some t → (error c).span = t.span)
    (hsame : ∀ rest, rest.head? = c.rest.head? → error (c.onto rest) = error c) :
    Prompt V (failWith error : Parser α) c := by
  refine prompt_stuck (e := some (error c)) hV (fun t ht => ⟨_, rfl, hspan t ht⟩)
    fun rest hhead => ⟨c.onto rest, ?_⟩
  rw [← hsame rest hhead]
  rfl

/-- The current token is where the cursor is. -/
theorem span_of_head? (h : c.rest.head? = some t) : c.span = t.span := by
  unfold Cursor.span
  cases hr : c.rest with
  | nil => rw [hr] at h; cases h
  | cons first tail => rw [hr] at h; exact congrArg Token.span (Option.some.inj h)

/-- A symbol that may come is told by the current token. -/
theorem prompt_skip (s : Symbol) : Prompt V (skip s) c := by
  -- Whether the symbol is skipped is a matter of the current token.
  have hrun : ∀ c : Cursor, skip s c =
      if c.at? (.symbol s) then .ok true c.skip else .ok false c := by
    intro c
    unfold skip
    rw [bind_of_ok (run_get c)]
    split <;> rfl
  by_cases hat : c.at? (.symbol s) = true
  · obtain ⟨t, tail, hrest⟩ : ∃ t tail, c.rest = t :: tail := by
      cases hr : c.rest with
      | nil => simp [Cursor.at?, hr] at hat
      | cons t tail => exact ⟨t, tail, rfl⟩
    refine prompt_first (q := pure true) hrest (fun tail' => ?_) (prompt_pure true)
    have hhead : (t :: tail').head? = c.rest.head? := by rw [hrest]; rfl
    rw [hrun, Cursor.at?_onto hhead, if_pos hat]
    rfl
  · refine prompt_stay (a := false) c.nextId fun rest hhead => ?_
    rw [hrun, Cursor.at?_onto hhead, if_neg hat]
    rfl

/-- A symbol that has to come is missed at the current token. -/
theorem prompt_expect (s : Symbol) (hV : V []) : Prompt V (expect s) c := by
  unfold expect
  refine (prompt_skip s).bind fun b c₁ hs => ?_
  rcases skip_eq_ok hs with ⟨rfl, hreads⟩ | ⟨rfl, rfl, -⟩
  · exact ⟨_, hreads, prompt_pure ()⟩
  · refine ⟨[], .refl c, prompt_failWith _ hV (fun t ht => span_of_head? ht) fun rest hhead => ?_⟩
    unfold Cursor.expectedError
    rw [Cursor.kind_onto hhead, Cursor.span_onto hhead]

/-! ## Items -/

variable {item : Parser α} {close : Symbol} {m : Bool}

/-- What comes second in two runs may differ where the first does not come to. -/
theorem run_bind_congr {f g : α → Parser β} (h : ∀ a c', p c = .ok a c' → f a c' = g a c') :
    (p >>= f) c = (p >>= g) c := by
  rw [run_bind, run_bind]
  cases hp : p c with
  | ok a c' => exact h a c' hp
  | error e c' => rfl

/-- An item and what comes after it: a comma and more items, or the closing symbol. -/
def itemsOnward (item : Parser α) (close : Symbol) : Parser (List α) := do
  let first ← item
  if ← skip .comma then
    return first :: (← items item close)
  else
    expect close
    return [first]

/-- Up to a closing symbol that comes at once there is no item. -/
theorem run_itemsUpTo_close (hat : c.at? (.symbol close) = true) (n : Nat)
    (hn : c.rest.length ≤ n) :
    itemsUpTo item close n c = (do expect close; return [] : Parser (List α)) c := by
  cases n with
  | zero =>
    have hrest : c.rest = [] := List.length_eq_zero_iff.1 (Nat.le_zero.1 hn)
    simp [Cursor.at?, hrest] at hat
  | succ n => rw [itemsUpTo, bind_of_ok (run_get c), if_pos hat]

/-- With another token an item comes first. A bound that is not below the number of tokens left is
as good as any other. -/
theorem run_itemsUpTo_item
    (hitem : ∀ {c a c'}, c.macrosOn = m → item c = .ok a c' → ∃ ks, c.Reads ks c')
    (hm : c.macrosOn = m) (hat : ¬c.at? (.symbol close) = true) (n : Nat)
    (hn : c.rest.length ≤ n) : itemsUpTo item close n c = itemsOnward item close c := by
  induction n using Nat.strongRecOn generalizing c with
  | _ n ih =>
    cases n with
    | zero =>
      -- Past the last token no comma comes.
      refine run_bind_congr fun a c₁ ha => ?_
      obtain ⟨ks, hreads⟩ := hitem hm ha
      have hrest : c₁.kinds = [] := by
        have hlength := hreads.length_rest
        exact List.map_eq_nil_iff.2 (List.length_eq_zero_iff.1 (by omega))
      rw [bind_of_ok (run_skip_of_ne (s := .comma) (by simp [hrest]))]
      rfl
    | succ n =>
      rw [itemsUpTo, bind_of_ok (run_get c), if_neg hat]
      refine run_bind_congr fun a c₁ ha => run_bind_congr fun b c₂ hs => ?_
      obtain ⟨ks, hreads⟩ := hitem hm ha
      rcases skip_eq_ok hs with ⟨rfl, hcomma⟩ | ⟨rfl, rfl, -⟩
      · -- The comma has been consumed, so what is left is within the bound for what is left.
        have hlength : c₂.rest.length ≤ n := by
          have hfirst := hreads.length_rest
          have hsecond := hcomma.length_rest
          rw [List.length_singleton] at hsecond
          omega
        have hm₂ : c₂.macrosOn = m := by rw [hcomma.macrosOn, hreads.macrosOn, hm]
        have hmore : itemsUpTo item close n c₂ = items item close c₂ := by
          rw [items, bind_of_ok (run_get c₂)]
          by_cases hat₂ : c₂.at? (.symbol close) = true
          · rw [run_itemsUpTo_close hat₂ n hlength, run_itemsUpTo_close hat₂ _ (Nat.le_refl _)]
          · rw [ih n n.lt_succ_self hm₂ hat₂ hlength,
              ih _ (Nat.lt_succ_of_le hlength) hm₂ hat₂ (Nat.le_refl _)]
        rw [if_pos rfl, if_pos rfl, run_bind, run_bind, hmore]
      · rfl

/-- Where the closing symbol stands no item is read. -/
theorem run_items_close (hat : c.at? (.symbol close) = true) :
    items item close c = (do expect close; return [] : Parser (List α)) c := by
  rw [items, bind_of_ok (run_get c), run_itemsUpTo_close hat _ (Nat.le_refl _)]

/-- Elsewhere a first item is read, with as many to follow as there are commas. -/
theorem run_items_item
    (hitem : ∀ {c a c'}, c.macrosOn = m → item c = .ok a c' → ∃ ks, c.Reads ks c')
    (hm : c.macrosOn = m) (hat : ¬c.at? (.symbol close) = true) :
    items item close c = itemsOnward item close c := by
  rw [items, bind_of_ok (run_get c), run_itemsUpTo_item hitem hm hat _ (Nat.le_refl _)]

end Parser

end CelShell
