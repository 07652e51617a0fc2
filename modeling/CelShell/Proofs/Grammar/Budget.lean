import CelShell.Proofs.Grammar.Counting
import CelShell.Proofs.Grammar.Lookahead

/-!
# Open levels and budgets

A parser that counts its open levels comes to an end, whatever state it starts in, and to the same
end as `ParserState.expr`: the tree or the one error of the parser with the budget that the open
levels leave, with as many levels open as before (`Counting.endsIn_iff`). The proof follows the
budget. `Counting.Agrees` compares one step of both sides, and `Counting.Counts` all functions at
once.
-/

namespace CelShell

namespace Counting

variable {α β : Type} {s s' : ParserState} {d : Nat} {sym : Symbol}

/-! ## Steps -/

/-- Where there is a token, it is consumed. -/
theorem run_bump {t : Token} {rest : List Token} (h : s.cursor.rest = t :: rest) :
    bump.run s = some (some t, { s with cursor := s.cursor.skip }) := by
  have hcurrent : s.current? = some t := congrArg List.head? h
  exact congrArg some (congrArg (·, _) hcurrent)

/-- A step that changes the state and never fails. -/
theorem run_modifyGet {f : ParserState → α × ParserState} {a : α} (h : f s = (a, s')) :
    (modifyGet f : Counting α).run s = some (some a, s') :=
  congrArg (fun r : α × ParserState => some (some r.1, r.2)) h

/-- A symbol that is the current token is consumed. -/
theorem run_skip_of_eq {ks : List Kind} (h : s.cursor.kinds = .symbol sym :: ks) :
    (skip sym).run s = some (some true, { s with cursor := s.cursor.skip }) :=
  run_modifyGet (if_pos ((s.cursor.at?_symbol sym).2 ⟨ks, h⟩))

/-- Where another token stands, none is consumed. -/
theorem run_skip_of_ne (h : ∀ ks, s.cursor.kinds ≠ .symbol sym :: ks) :
    (skip sym).run s = some (some false, s) := by
  have hat : ¬s.cursor.at? (.symbol sym) = true := fun hat =>
    have ⟨ks, hks⟩ := (s.cursor.at?_symbol sym).1 hat
    h ks hks
  exact run_modifyGet (if_neg hat)

/-- At the limit no level is opened, and an error is reported. -/
theorem run_enter_full (h : maxDepth ≤ s.depth) :
    enter.run s = some (none, s.report s.cursor.tooDeepError) := by
  have hx : s.enter = (false, s.report s.cursor.tooDeepError) := if_pos h
  exact bind_of_some (run_modifyGet hx)

/-- Below the limit a level is opened. -/
theorem run_enter_open (h : s.depth < maxDepth) :
    enter.run s = some (some (), { s with depth := s.depth + 1 }) := by
  have hx : s.enter = (true, { s with depth := s.depth + 1 }) := if_neg (Nat.not_le.2 h)
  exact bind_of_some (run_modifyGet hx)

/-! ## Enough room -/

section

variable {x y : Nat → Counting α} {f : Nat → α → Counting β} {o : Option α × ParserState}

/-- What a parser comes to wherever there is room for enough calls inside one another. -/
def Settles (x : Nat → Counting α) (s : ParserState) (o : Option α × ParserState) : Prop :=
  ∃ n, ∀ m, n ≤ m → (x m).run s = some o

/-- A step that runs as another parser does settles as that does. -/
theorem Settles.step (h : Settles y s' o) (hx : ∀ n, (x n).run s = (y n).run s') :
    Settles x s o := by
  obtain ⟨n, hn⟩ := h
  exact ⟨n, fun m hm => (hx m).trans (hn m hm)⟩

/-- A call takes some of the room. -/
theorem Settles.call (h : Settles (fun n => x (n + 1)) s o) : Settles x s o := by
  obtain ⟨n, hn⟩ := h
  refine ⟨n + 1, fun m hm => ?_⟩
  obtain ⟨m, rfl⟩ := Nat.exists_eq_add_one_of_ne_zero (Nat.ne_zero_of_lt hm)
  exact hn m (Nat.le_of_succ_le_succ hm)

/-- Two parsers in a row, the first of which succeeds, settle in the larger of their rooms. -/
theorem Settles.bind_of_some {a : α} {o : Option β × ParserState}
    (hx : Settles x s (some a, s')) (hf : Settles (fun n => f n a) s' o) :
    Settles (fun n => x n >>= f n) s o := by
  obtain ⟨n, hn⟩ := hx
  obtain ⟨k, hk⟩ := hf
  refine ⟨max n k, fun m hm => ?_⟩
  obtain ⟨hnm, hkm⟩ := Nat.max_le.1 hm
  exact (Counting.bind_of_some (hn m hnm)).trans (hk m hkm)

/-- Two parsers in a row, the first of which fails, settle where that does. -/
theorem Settles.bind_of_none (hx : Settles x s (none, s')) :
    Settles (fun n => x n >>= f n) s (none, s') := by
  obtain ⟨n, hn⟩ := hx
  exact ⟨n, fun m hm => Counting.bind_of_none (hn m hm)⟩

end

/-! ## Counting and budgets -/

section

variable {D : Nat → Prop} {x y : Nat → Counting α} {p : Parser α} {c : Cursor}
  {r : EStateM.Result (Option SyntaxError) Cursor α}

/-- A counting parser comes to an end, and it is the end of a run that opened no levels. How many
levels are open then is one of the numbers allowed. -/
def Agrees (x : Nat → Counting α) (s : ParserState)
    (r : EStateM.Result (Option SyntaxError) Cursor α) (D : Nat → Prop) : Prop :=
  ∃ d, D d ∧ Settles x s (ends s.errors d r)

/-- The levels that are open at the end are those that were open at the start. -/
abbrev Keeps (x : Nat → Counting α) (s : ParserState)
    (r : EStateM.Result (Option SyntaxError) Cursor α) : Prop := Agrees x s r (· = s.depth)

/-- The levels that are kept are those of the start. -/
theorem Keeps.settles (h : Keeps x s r) : Settles x s (ends s.errors s.depth r) := by
  obtain ⟨d, rfl, hx⟩ := h
  exact hx

/-- A step that reports no error. -/
theorem Agrees.step (h : Agrees y s' r D) (hx : ∀ n, (x n).run s = (y n).run s')
    (herrors : s'.errors = s.errors) : Agrees x s r D := by
  obtain ⟨d, hd, hy⟩ := h
  rw [herrors] at hy
  exact ⟨d, hd, hy.step hx⟩

/-- A call takes some of the room. -/
theorem Agrees.call (h : Agrees (fun n => x (n + 1)) s r D) : Agrees x s r D :=
  h.imp fun _ => And.imp_right Settles.call

/-- To look at the state changes nothing. -/
theorem agrees_get {f : Nat → ParserState → Counting α} (h : Agrees (fun n => f n s) s r D) :
    Agrees (fun n => get >>= f n) s r D :=
  h.step (fun _ => rfl) rfl

/-- A parser that opens no levels agrees with itself. -/
theorem agrees_lift (p : Parser α) (hD : D s.depth) :
    Agrees (fun _ => lift p) s (p s.cursor) D :=
  ⟨s.depth, hD, 0, fun _ _ => rfl⟩

/-- A parser that only gives a value agrees with one that gives the same. -/
theorem agrees_pure (a : α) (hD : D s.depth) :
    Agrees (fun _ => pure a) s ((pure a : Parser α) s.cursor) D :=
  ⟨s.depth, hD, 0, fun _ _ => rfl⟩

/-- A parser that reports an error agrees with one that fails with it. -/
theorem agrees_report {e : SyntaxError} (hx : ∀ n, (x n).run s = some (none, s.report e))
    (hD : D s.depth) : Agrees x s (.error (some e) s.cursor) D :=
  ⟨s.depth, hD, 0, fun n _ => hx n⟩

/-- Two parsers in a row. It is known how many levels are open after the first. -/
theorem Agrees.bind {f : Nat → α → Counting β} {g : α → Parser β} {D : Nat → Prop}
    (hx : Agrees x s (p c) (· = d))
    (hf : ∀ a c', p c = .ok a c' →
      Agrees (fun n => f n a) { s with cursor := c', depth := d } (g a c') D)
    (hD : D d) : Agrees (fun n => x n >>= f n) s ((p >>= g) c) D := by
  obtain ⟨_, rfl, hx⟩ := hx
  rw [Parser.run_bind]
  cases hp : p c with
  | ok a c' =>
    rw [hp] at hx
    obtain ⟨d, hd, hf⟩ := hf a c' hp
    exact ⟨d, hd, hx.bind_of_some hf⟩
  | error e c' =>
    rw [hp] at hx
    -- An error ends both, with the levels open that it left.
    cases e <;> exact ⟨_, hD, hx.bind_of_none⟩

/-- The current token is consumed before both go on. -/
theorem agrees_bump {t : Token} {rest : List Token} {f : Nat → Token → Counting α}
    (hrest : s.cursor.rest = t :: rest)
    (h : Agrees (fun n => f n t) { s with cursor := s.cursor.skip } r D) :
    Agrees (fun n => bump >>= f n) s r D :=
  h.step (fun _ => bind_of_some (run_bump hrest)) rfl

/-- Both take the same branch on a symbol, which has been consumed in the first of them. -/
theorem agrees_skip {yes no : Nat → Counting α} {p q : Parser α}
    (hyes : ∀ c', s.cursor.Reads [.symbol sym] c' → Agrees yes { s with cursor := c' } (p c') D)
    (hno : Agrees no s (q s.cursor) D) :
    Agrees (fun n => do if ← skip sym then yes n else no n) s
      ((do if ← Parser.skip sym then p else q) s.cursor) D := by
  by_cases hk : ∃ ks, s.cursor.kinds = .symbol sym :: ks
  · obtain ⟨ks, hks⟩ := hk
    rw [Parser.bind_of_ok (Parser.run_skip_of_eq hks)]
    exact (hyes _ (Cursor.reads_skip hks)).step (fun _ => bind_of_some (run_skip_of_eq hks)) rfl
  · have hne := not_exists.1 hk
    rw [Parser.bind_of_ok (Parser.run_skip_of_ne hne)]
    exact hno.step (fun _ => bind_of_some (run_skip_of_ne hne)) rfl

/-- Both expect the same symbol, and fail alike if it is not there. -/
theorem agrees_expect {k : Nat → Counting α} {g : Unit → Parser α}
    (hf : ∀ c', s.cursor.Reads [.symbol sym] c' → Agrees k { s with cursor := c' } (g () c') D)
    (hD : D s.depth) :
    Agrees (fun n => do let _ ← expect sym; k n) s ((Parser.expect sym >>= g) s.cursor) D := by
  by_cases hat : s.cursor.at? (.symbol sym) = true
  · obtain ⟨ks, hks⟩ := (s.cursor.at?_symbol sym).1 hat
    obtain ⟨span, rest, hrest⟩ := Cursor.rest_of_kinds hks
    -- At the symbol both consume it.
    have hx : (expect sym).run s = bump.run s := congrArg some (if_pos hat)
    rw [Parser.bind_of_ok (Parser.run_expect_of_eq hks)]
    exact (hf _ (Cursor.reads_skip hks)).step
      (fun _ => bind_of_some (hx.trans (run_bump hrest))) rfl
  · have hskip := Parser.run_skip_of_ne fun ks hks => hat ((s.cursor.at?_symbol sym).2 ⟨ks, hks⟩)
    -- At any other token both report it.
    have hp : Parser.expect sym s.cursor =
        .error (some (s.cursor.expectedError (.symbol sym))) s.cursor := by
      unfold Parser.expect
      rw [Parser.bind_of_ok hskip]
      rfl
    have hx : (expect sym).run s = some (none, s.report (s.cursor.expectedError (.symbol sym))) :=
      congrArg some (if_neg hat)
    rw [Parser.run_bind, hp]
    exact agrees_report (fun _ => bind_of_none hx) hD

/-! ### Levels that are closed -/

/-- How a run ends does not hang on how many levels are open. -/
theorem ends_with_depth (errors : List SyntaxError) (d d' : Nat) :
    ((ends errors d r).1, { (ends errors d r).2 with depth := d' }) = ends errors d' r := by
  cases r with
  | ok a c => rfl
  | error e c => cases e <;> rfl

/-- A level that was opened is closed. -/
theorem Agrees.leaving (h : Agrees x s r (· = d + 1)) :
    Agrees (fun n => leaving (x n)) s r (· = d) := by
  obtain ⟨_, rfl, n, hn⟩ := h
  -- However the run ended, the level it opened is the last one.
  have hdepth : (ends s.errors (d + 1) r).2.depth - 1 = d := by
    cases r with
    | ok a c => rfl
    | error e c => cases e <;> rfl
  refine ⟨d, rfl, n, fun m hm => ?_⟩
  have hrun : (Counting.leaving (x m)).run s =
      some ((ends s.errors (d + 1) r).1, (ends s.errors (d + 1) r).2.leave) := by
    change ((x m).run s).bind _ = _
    rw [hn m hm]
    rfl
  rw [← ends_with_depth s.errors (d + 1) d]
  refine hrun.trans ?_
  rw [ParserState.leave, hdepth]

/-- A chain closes at its end what its links opened. -/
theorem Agrees.closing (h : Agrees x s r D) : Keeps (fun n => closing (x n)) s r := by
  obtain ⟨d, -, n, hn⟩ := h
  refine ⟨s.depth, rfl, n, fun m hm => ?_⟩
  rw [← ends_with_depth s.errors d s.depth]
  change ((x m).run s).bind _ = _
  rw [hn m hm]
  rfl

/-! ## Lists -/

/-- A loop over items comes to an end. -/
theorem keeps_items {close : Symbol} {item : Nat → Counting α} {loop : Nat → Counting (List α)}
    (hloop : ∀ n, loop (n + 1) = turn close (item n) (loop n))
    (hitem : ∀ s : ParserState, s.depth = d → Keeps item s (p s.cursor))
    (hreads : ∀ {c a c'}, p c = .ok a c' → ∃ ks, c.Reads ks c') (s : ParserState)
    (hs : s.depth = d) : Keeps loop s (Parser.items p close s.cursor) := by
  induction hn : s.cursor.rest.length using Nat.strongRecOn generalizing s with
  | _ n ih =>
  -- Each turn takes a token, and some of the room.
  refine Agrees.call ?_
  simp only [hloop, turn]
  refine agrees_get ?_
  by_cases hclose : s.cursor.at? (.symbol close) = true
  · simp only [Parser.run_items_close hclose, if_pos hclose]
    exact agrees_expect (fun c' _ => agrees_pure _ rfl) rfl
  · rw [Parser.run_items_item (m := s.cursor.macrosOn) (fun _ => hreads) rfl hclose]
    simp only [if_neg hclose]
    refine (hitem s hs).bind (fun a c₁ ha => agrees_skip (fun c₂ hr₂ => ?_) ?_) rfl
    · obtain ⟨ks₁, hr₁⟩ := hreads ha
      have hlt : c₂.rest.length < n := by
        have hfirst := hr₁.length_rest
        have hsecond : c₁.rest.length = _ := hr₂.length_rest
        rw [List.length_singleton] at hsecond
        omega
      exact (ih _ hlt ⟨c₂, s.depth, s.errors⟩ hs rfl).bind (fun as c₃ _ => agrees_pure _ rfl) rfl
    · exact agrees_expect (fun c' _ => agrees_pure _ rfl) rfl

end

/-! ## The parsers of one budget -/

open CelShell.Parser (Level SoundExpr)

/-- With a number of open levels, an expression is read as by a parser that is right. -/
structure CountsExpr (e : Parser Tree) (d : Nat) : Prop where
  sound : ∀ m, SoundExpr m e
  keeps : ∀ s : ParserState, s.depth = d → Keeps (fun n => (Calls.upTo n).expr) s (e s.cursor)

variable {e : Parser Tree} {c : Cursor}

/-- An expression is read from the start of the tokens on. -/
theorem CountsExpr.reads (he : CountsExpr e d) {t : Tree} {c' : Cursor} (h : e c = .ok t c') :
    ∃ ks, c.Reads ks c' := (he.sound c.macrosOn rfl h).imp fun _ => And.left

/-- The items of a list are whole expressions. -/
theorem CountsExpr.items (he : CountsExpr e d) (close : Symbol) (s : ParserState)
    (hs : s.depth = d) :
    Keeps (fun n => (Calls.upTo n).items close) s (Parser.items e close s.cursor) :=
  keeps_items (fun _ => rfl) he.keeps he.reads s hs

/-- The entries of a map are two whole expressions with a colon between them. -/
theorem CountsExpr.entries (he : CountsExpr e d) (s : ParserState) (hs : s.depth = d) :
    Keeps (fun n => (Calls.upTo n).entries) s (Parser.items (do
      let key ← e
      Parser.expect .colon
      let value ← e
      return (key, value)) .rightBrace s.cursor) := by
  have hloop : ∀ n, (Calls.upTo (n + 1)).entries =
    turn .rightBrace (entry (Calls.upTo n)) (Calls.upTo n).entries := fun _ => rfl
  refine keeps_items hloop (fun s hs => ?_) (fun h => ?_) s hs
  · unfold entry
    refine (he.keeps s hs).bind (fun key c₁ _ => agrees_expect (fun c₂ _ => ?_) rfl) rfl
    exact (he.keeps { s with cursor := c₂ } hs).bind (fun value c₃ _ => agrees_pure _ rfl) rfl
  · -- An entry that was read has consumed tokens, so the loop comes to an end.
    obtain ⟨key, c₁, hkey, h⟩ := Parser.bind_eq_ok.1 h
    obtain ⟨_, c₂, hcolon, h⟩ := Parser.bind_eq_ok.1 h
    obtain ⟨value, c₃, hvalue, h⟩ := Parser.bind_eq_ok.1 h
    obtain ⟨-, rfl⟩ := Parser.pure_eq_ok.1 h
    obtain ⟨ks₁, hr₁⟩ := he.reads hkey
    obtain ⟨ks₂, hr₂⟩ := he.reads hvalue
    exact ⟨_, (hr₁.trans (Parser.expect_eq_ok hcolon)).trans hr₂⟩

/-- What stands alone. -/
theorem CountsExpr.primary (he : CountsExpr e d) (s : ParserState) (hs : s.depth = d) :
    Keeps (fun n => primary (Calls.upTo n)) s (Level.primary e s.cursor) := by
  unfold Counting.primary
  rw [Level.primary, Parser.bind_of_ok (Parser.run_get _)]
  refine agrees_get ?_
  unfold ParserState.current? Cursor.current?
  -- Both look at the same token, and each token begins one form.
  cases hrest : s.cursor.rest with
  | nil => exact agrees_lift _ rfl
  | cons t rest =>
    obtain ⟨k, span⟩ := t
    cases k with
    | literal value => exact agrees_bump hrest (agrees_lift _ rfl)
    | ident name =>
      refine agrees_bump hrest (agrees_skip (fun c₁ _ => ?_) (agrees_lift _ rfl))
      exact (he.items _ { s with cursor := c₁ } hs).bind (fun args c₂ _ => agrees_lift _ rfl) rfl
    | symbol sym =>
      cases sym with
      | leftParen =>
        refine agrees_bump hrest ?_
        refine (he.keeps { s with cursor := s.cursor.skip } hs).bind (fun inner c₁ _ => ?_) rfl
        exact agrees_expect (fun c₂ _ => agrees_pure _ rfl) rfl
      | leftBracket =>
        refine agrees_bump hrest ?_
        exact (he.items _ { s with cursor := s.cursor.skip } hs).bind
          (fun elements c₁ _ => agrees_lift _ rfl) rfl
      | leftBrace =>
        refine agrees_bump hrest ?_
        exact (he.entries { s with cursor := s.cursor.skip } hs).bind
          (fun members c₁ _ => agrees_lift _ rfl) rfl
      | _ => exact agrees_lift _ rfl
    | _ => exact agrees_lift _ rfl

/-- With a number of open levels, counting comes to the same end as the parsers of a budget. -/
structure Counts (l : Level) (d : Nat) : Prop where
  sound : ∀ m, l.Sound m
  expr : ∀ s : ParserState, s.depth = d →
    Keeps (fun n => (Calls.upTo n).expr) s (l.expr s.cursor)
  unary : ∀ s : ParserState, s.depth = d →
    Keeps (fun n => (Calls.upTo n).unary) s (l.unary s.cursor)
  binaryLinks : ∀ (s : ParserState) (least : Nat) (left : Tree), s.depth = d →
    Agrees (fun n => (Calls.upTo n).binaryLinks least left) s (l.binaryChain least left s.cursor)
      fun _ => True
  memberLinks : ∀ (s : ParserState) (target : Tree), s.depth = d →
    Agrees (fun n => (Calls.upTo n).memberLinks target) s (l.memberChain target s.cursor)
      fun _ => True

variable {l : Level} {below : Option Level}

/-- The parsers of a budget agree on whole expressions. -/
theorem Counts.countsExpr (hl : Counts l d) : CountsExpr l.expr d where
  sound m := (hl.sound m).expr
  keeps := hl.expr

/-- A chain of operators closes at its end what its links opened. -/
theorem Counts.binary (hl : Counts l d) (s : ParserState) (least : Nat) (hs : s.depth = d) :
    Keeps (fun n => binary (Calls.upTo n) least) s (l.binary least s.cursor) := by
  refine Agrees.closing (D := fun _ => True) ?_
  exact (hl.unary s hs).bind (fun left c' _ => hl.binaryLinks _ least left hs) trivial

/-- A conditional, or the condition alone. -/
theorem Counts.conditional (hl : Counts l d) (s : ParserState) (hs : s.depth = d) :
    Keeps (fun n => conditional (Calls.upTo n)) s (l.conditional s.cursor) := by
  unfold Counting.conditional
  refine (hl.binary s _ hs).bind (fun condition c₁ _ => ?_) rfl
  refine agrees_skip (fun c₂ _ => ?_) (agrees_pure _ rfl)
  refine (hl.binary { s with cursor := c₂ } _ hs).bind (fun yes c₃ _ => ?_) rfl
  refine agrees_expect (fun c₄ _ => ?_) rfl
  exact (hl.expr { s with cursor := c₄ } hs).bind (fun no c₅ _ => agrees_lift _ rfl) rfl

/-- An index and the bracket behind it. -/
theorem Counts.index (hl : Counts l d) (s : ParserState) (target : Tree) (hs : s.depth = d) :
    Keeps (fun n => index (Calls.upTo n) target) s (l.index target s.cursor) := by
  unfold Counting.index
  refine (hl.expr s hs).bind (fun i c₁ _ => agrees_expect (fun c₂ _ => ?_) rfl) rfl
  exact agrees_lift _ rfl

/-- What follows a point. -/
theorem Counts.field (hl : Counts l d) (s : ParserState) (target : Tree) (hs : s.depth = d) :
    Keeps (fun n => field (Calls.upTo n) target) s (l.field target s.cursor) := by
  unfold Counting.field
  rw [Level.field, Parser.bind_of_ok (Parser.run_get _)]
  cases hrest : s.cursor.rest with
  | nil =>
    -- Nothing is left to consume, so nothing is reported either.
    have hx : bump.run s = some (none, s) := by
      have hbump : s.bump = (none, s) := by
        rw [ParserState.bump, ParserState.current?, Cursor.current?, Cursor.skip, hrest]
        rfl
      exact congrArg some hbump
    exact ⟨s.depth, rfl, 0, fun _ _ => bind_of_none hx⟩
  | cons t rest =>
    refine agrees_bump hrest ?_
    obtain ⟨k, span⟩ := t
    cases k with
    | ident name =>
      refine agrees_skip (fun c₁ _ => ?_) (agrees_lift _ rfl)
      exact (hl.countsExpr.items _ { s with cursor := c₁ } hs).bind
        (fun args c₂ _ => agrees_lift _ rfl) rfl
    | _ => exact agrees_lift _ rfl

/-- What is known of the parsers of the budget below. There are none where the limit is reached. -/
def Deeper (below : Option Level) (d : Nat) : Prop :=
  match below with
  | none => maxDepth ≤ d
  | some l => d < maxDepth ∧ Counts l (d + 1)

/-- A level is opened for the parsers of the budget below, or there are none. -/
theorem agrees_enter {D : Nat → Prop} {x : Nat → Counting α}
    {r : EStateM.Result (Option SyntaxError) Cursor α} (hb : Deeper below d) (hs : s.depth = d)
    (hD : D d) (hfull : below = none → r = .error (some s.cursor.tooDeepError) s.cursor)
    (hopen : ∀ l, below = some l → Counts l (d + 1) →
      Agrees x { s with depth := d + 1 } r D) :
    Agrees (fun n => do enter; x n) s r D := by
  subst hs
  cases below with
  | none =>
    rw [hfull rfl]
    exact agrees_report (fun _ => bind_of_none (run_enter_full hb)) hD
  | some l => exact (hopen l rfl hb.2).step (fun _ => bind_of_some (run_enter_open hb.1)) rfl

/-- The parsers of a budget are sound if those below are. -/
theorem ofBelow_sound (hb : Deeper below d) (m : Bool) : (Level.ofBelow below).Sound m := by
  refine Level.ofBelow_sound fun l h => ?_
  subst h
  exact hb.2.sound m

/-- A whole expression opens a level and closes it. -/
theorem ofBelow_expr_keeps (hb : Deeper below d) (s : ParserState) (hs : s.depth = d) :
    Keeps (fun n => (Calls.upTo n).expr) s ((Level.ofBelow below).expr s.cursor) := by
  subst hs
  refine Agrees.call ?_
  refine agrees_enter hb rfl rfl (fun h => ?_) fun l h hl => ?_
  · rw [h, Level.run_expr_none]
  · subst h
    exact (hl.conditional { s with depth := s.depth + 1 } rfl).leaving

/-- The parsers of a budget agree on whole expressions if those below do. -/
theorem ofBelow_countsExpr (hb : Deeper below d) : CountsExpr (Level.ofBelow below).expr d where
  sound m := (ofBelow_sound hb m).expr
  keeps := ofBelow_expr_keeps hb

/-- A link of a chain of members opens a level that the rest of the chain leaves open. -/
theorem ofBelow_memberLinks_agrees (hb : Deeper below d) (s : ParserState) (target : Tree)
    (hs : s.depth = d) :
    Agrees (fun n => (Calls.upTo n).memberLinks target) s
      ((Level.ofBelow below).memberChain target s.cursor) fun _ => True := by
  -- The level of a link stays open, so only the chain as a whole keeps the number of levels.
  refine Agrees.call ?_
  refine agrees_get ?_
  by_cases hk : s.cursor.kind = .symbol .dot ∨ s.cursor.kind = .symbol .leftBracket
  · simp only [if_pos hk]
    refine agrees_enter hb hs trivial (fun h => ?_) fun l h hl => ?_
    · rw [h, Level.run_memberChain_none hk]
    · subst h
      rcases hk with hk | hk
      · obtain ⟨ks, hks⟩ := Cursor.kinds_of_kind (c := s.cursor) (by simp [hk])
        rw [hk] at hks
        rw [Level.run_memberChain_dot hk]
        refine Agrees.step ?_ (fun _ => bind_of_some (run_skip_of_eq hks)) rfl
        exact (hl.field ⟨s.cursor.skip, d + 1, s.errors⟩ target rfl).bind
          (fun link c₁ _ => hl.memberLinks _ link rfl) trivial
      · obtain ⟨ks, hks⟩ := Cursor.kinds_of_kind (c := s.cursor) (by simp [hk])
        rw [hk] at hks
        rw [Level.run_memberChain_bracket hk]
        have hdot : ∀ ks, s.cursor.kinds ≠ .symbol .dot :: ks := by simp [hks]
        have hskip := run_skip_of_ne (s := { s with depth := d + 1 }) hdot
        refine Agrees.step ?_ (fun _ => bind_of_some hskip) rfl
        refine Agrees.step ?_ (fun _ => bind_of_some (run_skip_of_eq hks)) rfl
        exact (hl.index ⟨s.cursor.skip, d + 1, s.errors⟩ target rfl).bind
          (fun link c₁ _ => hl.memberLinks _ link rfl) trivial
  · have hk' := not_or.1 hk
    simp only [if_neg hk, Level.run_memberChain_stop hk'.1 hk'.2]
    exact agrees_pure _ trivial

/-- A chain of members, from its first to its last. -/
theorem ofBelow_member_keeps (hb : Deeper below d) (s : ParserState) (hs : s.depth = d) :
    Keeps (fun n => member (Calls.upTo n)) s ((Level.primary (Level.ofBelow below).expr >>=
      (Level.ofBelow below).memberChain) s.cursor) := by
  refine Agrees.closing (D := fun _ => True) ?_
  exact ((ofBelow_countsExpr hb).primary s hs).bind
    (fun target c₁ _ => ofBelow_memberLinks_agrees hb _ target hs) trivial

/-- An operator opens a level that is closed behind its operand. Without one there is a chain of
members. -/
theorem ofBelow_unary_keeps (hb : Deeper below d) (s : ParserState) (hs : s.depth = d) :
    Keeps (fun n => (Calls.upTo n).unary) s ((Level.ofBelow below).unary s.cursor) := by
  subst hs
  refine Agrees.call ?_
  refine agrees_get ?_
  cases hop : UnaryOp.ofKind? s.cursor.kind with
  | none =>
    rw [Level.run_unary_member hop]
    exact ofBelow_member_keeps hb s rfl
  | some op =>
    refine agrees_enter hb rfl rfl (fun h => ?_) fun l h hl => ?_
    · rw [h, Level.run_unary_none hop]
    · subst h
      rw [Level.run_unary_operator hop]
      obtain ⟨sign, rest, hrest, -⟩ := Cursor.exists_rest_of_kind (c := s.cursor) fun he => by
        simp [he, UnaryOp.ofKind?] at hop
      have hspan : s.cursor.span = sign.span := by rw [Cursor.span, hrest]
      -- The span of the operator is that of the token that is consumed.
      refine agrees_bump hrest ?_
      rw [hspan]
      have hoperand := hl.unary ⟨s.cursor.skip, s.depth + 1, s.errors⟩ rfl
      exact hoperand.leaving.bind (fun operand c₁ _ => agrees_lift _ rfl) rfl

/-- A link of a chain of operators opens a level that the rest of the chain leaves open. -/
theorem ofBelow_binaryLinks_agrees (hb : Deeper below d) (s : ParserState) (least : Nat)
    (left : Tree) (hs : s.depth = d) :
    Agrees (fun n => (Calls.upTo n).binaryLinks least left) s
      ((Level.ofBelow below).binaryChain least left s.cursor) fun _ => True := by
  refine Agrees.call ?_
  refine agrees_get ?_
  cases hop : BinaryOp.ofKind? s.cursor.kind with
  | none =>
    rw [Level.run_binaryChain_stop hop]
    exact agrees_pure _ trivial
  | some op =>
    by_cases hlt : op.binding < least
    · simp only [if_pos hlt, Level.run_binaryChain_loose hop hlt]
      exact agrees_pure _ trivial
    · have hge := Nat.not_lt.1 hlt
      simp only [if_neg hlt]
      -- The link opens a level; where none is left, both report the nesting limit.
      refine agrees_enter hb hs trivial (fun h => ?_) fun l h hl => ?_
      · rw [h, Level.run_binaryChain_none hop hge]
      · subst h
        rw [Level.run_binaryChain_link hop hge]
        obtain ⟨sign, rest, hrest, -⟩ := Cursor.exists_rest_of_kind (c := s.cursor) fun he => by
          simp [he, BinaryOp.ofKind?] at hop
        refine agrees_bump hrest ?_
        refine (hl.binary ⟨s.cursor.skip, d + 1, s.errors⟩ _ rfl).bind
          (fun right c₁ _ => ?_) trivial
        refine Agrees.bind (d := d + 1) (agrees_lift _ rfl) (fun link c₂ _ => ?_) trivial
        exact hl.binaryLinks _ least link rfl

/-- A level more open is a budget less. -/
theorem ofBelow_counts (hb : Deeper below d) : Counts (Level.ofBelow below) d where
  sound := ofBelow_sound hb
  expr := ofBelow_expr_keeps hb
  unary := ofBelow_unary_keeps hb
  binaryLinks := ofBelow_binaryLinks_agrees hb
  memberLinks := ofBelow_memberLinks_agrees hb

/-- The budget is what the open levels leave of the limit. -/
theorem level_counts (d : Nat) : Counts (Parser.level (maxDepth - d)) d := by
  -- The budget below is that of one more open level.
  induction hbudget : maxDepth - d generalizing d with
  | zero =>
    have hb : Deeper none d := Nat.le_of_sub_eq_zero hbudget
    exact ofBelow_counts hb
  | succ budget ih =>
    have hb : Deeper (some (Parser.level budget)) d := ⟨by omega, ih (d + 1) (by omega)⟩
    exact ofBelow_counts hb

/-- With enough room, an expression is read as its budget allows. -/
theorem expr_settles (s : ParserState) : Settles (fun n => (Calls.upTo n).expr) s s.expr := by
  have hexpr : ends s.errors s.depth ((Parser.level (maxDepth - s.depth)).expr s.cursor) =
      s.expr := by
    unfold ParserState.expr Parser.expr
    cases (Parser.level (maxDepth - s.depth)).expr s.cursor with
    | ok t c => rfl
    | error e c => cases e <;> rfl
  rw [← hexpr]
  exact ((level_counts s.depth).expr s rfl).settles

/-- How reading an expression ends, given enough room for the calls. -/
def EndsIn (s : ParserState) (o : Option Tree × ParserState) : Prop :=
  ∃ n, (Calls.upTo n).expr.run s = some o

/-- Counting comes to an end, and to the same as the budget. -/
theorem endsIn_iff {o : Option Tree × ParserState} : EndsIn s o ↔ o = s.expr := by
  obtain ⟨k, hk⟩ := expr_settles s
  constructor
  · rintro ⟨n, hn⟩
    -- Both runs have their ends in the larger room.
    have hmax := (Calls.upTo_within (Nat.le_max_left n k)).expr hn
    rw [hk _ (Nat.le_max_right n k)] at hmax
    exact (Option.some.inj hmax).symm
  · rintro rfl
    exact ⟨k, hk k (Nat.le_refl k)⟩

end Counting

end CelShell
