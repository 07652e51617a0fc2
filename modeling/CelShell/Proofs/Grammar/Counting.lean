import CelShell.Expr.ParserState

/-!
# Counting the open levels

The parsers of `Parser.Level` get a budget and hand on what is left of it, so a level never has to
be closed. A parser that keeps the number of open levels in its state has to close them: on the way
out of an expression, behind the operand of an operator, and at the end of a chain, each of whose
links has opened one. This is the grammar in that form. Its functions call each other with nothing
that bounds their recursion, so that they come to an end is a theorem (`Grammar.Budget`).

The parsers are written for calls that are given, `Counting.Calls`, and `Counting.Calls.upTo` ties
them together: calls are made inside one another as long as there is room. More room lets more runs
come to an end, and changes none that does (`Counting.Calls.upTo_within`).
-/

namespace CelShell

/-- Steps on the state of a parser. They have no end where more calls are made inside one another
than there is room for. -/
abbrev Steps := StateT ParserState Option

/-- Steps that may fail. What the state has become by then is kept. -/
abbrev Counting := OptionT Steps

namespace Counting

variable {α β : Type}

/-! ## The parsers -/

/-- Consumes the current token. -/
def bump : Counting Token := OptionT.mk (modifyGet ParserState.bump)

/-- Consumes the current token if it is a symbol. -/
def skip (sym : Symbol) : Counting Bool := modifyGet (·.skip (.symbol sym))

/-- Consumes the current token, which has to be a symbol. -/
def expect (sym : Symbol) : Counting Token := OptionT.mk (modifyGet (·.expect (.symbol sym)))

/-- Opens a level of nesting, or fails where the limit is reached. -/
def enter : Counting Unit := do guard (← modifyGet ParserState.enter)

/-- How a run ends that opened no levels: its error, if it has one, is reported. -/
def ends (errors : List SyntaxError) (depth : Nat) :
    EStateM.Result (Option SyntaxError) Cursor α → Option α × ParserState
  | .ok a cursor => (some a, ⟨cursor, depth, errors⟩)
  | .error (some e) cursor => (none, ⟨cursor, depth, errors ++ [e]⟩)
  | .error none cursor => (none, ⟨cursor, depth, errors⟩)

/-- Runs a parser that opens no levels. -/
def lift (p : Parser α) : Counting α :=
  OptionT.mk fun s => some (ends s.errors s.depth (p s.cursor))

/-- What has been opened is closed at the end, however it comes to it. -/
def closing (x : Counting α) : Counting α :=
  (do
    let before ← get
    let result ← x.run
    modify (·.restore before.depth)
    return result : Steps (Option α))

/-- The level that has just been opened is closed behind a parser, however it ends. -/
def leaving (x : Counting α) : Counting α :=
  (do
    let result ← x.run
    modify ParserState.leave
    return result : Steps (Option α))

/-- The parsers that are called, directly or through others, while they run. -/
structure Calls where
  /-- A whole expression. -/
  expr : Counting Tree
  /-- An operand of a binary operator. -/
  unary : Counting Tree
  /-- The rest of a chain of operators that bind at least as tightly as a level. -/
  binaryLinks : Nat → Tree → Counting Tree
  /-- The rest of a chain of members. -/
  memberLinks : Tree → Counting Tree
  /-- Expressions with commas between them, up to and including a closing symbol. -/
  items : Symbol → Counting (List Tree)
  /-- Entries with commas between them, up to and including the closing brace. -/
  entries : Counting (List (Tree × Tree))

section

variable (calls : Calls)

/-- A chain of operators that bind at least as tightly as a level. The levels that it opened are
closed at its end. -/
def binary (least : Nat) : Counting Tree :=
  closing do calls.binaryLinks least (← calls.unary)

/-- An expression that may be a conditional. -/
def conditional : Counting Tree := do
  let condition ← binary calls Binding.or
  if ← skip .question then
    let thenBranch ← binary calls Binding.or
    let _ ← expect .colon
    let elseBranch ← calls.expr
    lift (Parser.node
      (fun m => .call m Operator.conditional [condition, thenBranch, elseBranch])
      (condition.mark.span.cover elseBranch.mark.span))
  else return condition

/-- A whole expression takes a level. -/
def expr : Counting Tree := do
  enter
  leaving (conditional calls)

/-- The rest of a chain of operators. Each link opens a level. -/
def binaryLinks (least : Nat) (left : Tree) : Counting Tree := do
  match BinaryOp.ofKind? (← get).cursor.kind with
  | some op =>
    if op.binding < least then return left
    else
      enter
      let _ ← bump
      let right ← binary calls (op.binding + 1)
      let link ← lift (Parser.node (fun m => .call m op.function [left, right])
        (left.mark.span.cover right.mark.span))
      calls.binaryLinks least link
  | none => return left

/-- What follows a point: a field, or a call on the expression before it. -/
def field (target : Tree) : Counting Tree := do
  match ← bump with
  | ⟨.ident name, span⟩ =>
    if ← skip .leftParen then
      let args ← calls.items .rightParen
      lift (do
        Parser.receiverCall target name args (target.mark.span.cover (← get).previous))
    else lift (Parser.node (fun m => .select m target name false) (target.mark.span.cover span))
  | ⟨kind, span⟩ =>
    lift (throw (some (.message ("expected field name, found " ++ kind.describe) span)))

/-- What follows an opening bracket: an index of the expression before it. -/
def index (target : Tree) : Counting Tree := do
  let index ← calls.expr
  let _ ← expect .rightBracket
  lift (do
    Parser.node (fun m => .call m Operator.index [target, index])
      (target.mark.span.cover (← get).previous))

/-- The rest of a chain of members. Each link opens a level. -/
def memberLinks (target : Tree) : Counting Tree := do
  let kind := (← get).cursor.kind
  if kind = .symbol .dot ∨ kind = .symbol .leftBracket then
    -- The level opens before it is known whether the link is well formed.
    enter
    if ← skip .dot then
      calls.memberLinks (← field calls target)
    else if ← skip .leftBracket then
      calls.memberLinks (← index calls target)
    -- The token is one of the two, so this is never reached.
    else return target
  else return target

/-- What stands alone: a constant, a name, a call, or something in brackets. -/
def primary : Counting Tree := do
  match (← get).current? with
  | some ⟨.literal value, span⟩ =>
    let _ ← bump
    lift (Parser.node (fun m => .literal m value) span)
  | some ⟨.ident name, span⟩ =>
    let _ ← bump
    if ← skip .leftParen then
      let args ← calls.items .rightParen
      lift (do Parser.globalCall name args (span.cover (← get).previous))
    else lift (Parser.node (fun m => .ident m name) span)
  | some ⟨.symbol .leftParen, _⟩ =>
    let _ ← bump
    let inner ← calls.expr
    let _ ← expect .rightParen
    return inner
  | some ⟨.symbol .leftBracket, span⟩ =>
    let _ ← bump
    let elements ← calls.items .rightBracket
    lift (do Parser.node (fun m => .list m elements) (span.cover (← get).previous))
  | some ⟨.symbol .leftBrace, span⟩ =>
    let _ ← bump
    let members ← calls.entries
    lift (do Parser.node (fun m => .map m members) (span.cover (← get).previous))
  | _ => lift (Parser.failWith Cursor.unexpectedError)

/-- A chain of members. The levels that it opened are closed at its end. -/
def member : Counting Tree :=
  closing do calls.memberLinks (← primary calls)

/-- An operand of a binary operator. The level of an operator before it is closed behind what the
operator stands before. -/
def unary : Counting Tree := do
  match UnaryOp.ofKind? (← get).cursor.kind with
  | some op =>
    enter
    let sign ← bump
    let operand ← leaving calls.unary
    lift (Parser.unaryNode op operand (sign.span.cover operand.mark.span))
  | none => member calls

/-- One item of a list, with the rest of the list behind it. -/
def turn (close : Symbol) (item : Counting α) (loop : Counting (List α)) :
    Counting (List α) := do
  if (← get).cursor.at? (.symbol close) then
    let _ ← expect close
    return []
  else
    let first ← item
    if ← skip .comma then
      return first :: (← loop)
    else
      let _ ← expect close
      return [first]

/-- A key and its value. -/
def entry : Counting (Tree × Tree) := do
  let key ← calls.expr
  let _ ← expect .colon
  let value ← calls.expr
  return (key, value)

end

namespace Calls

/-- No call is made: there is no room for one. -/
def never : Calls where
  expr := OptionT.mk fun _ => none
  unary := OptionT.mk fun _ => none
  binaryLinks _ _ := OptionT.mk fun _ => none
  memberLinks _ := OptionT.mk fun _ => none
  items _ := OptionT.mk fun _ => none
  entries := OptionT.mk fun _ => none

/-- The parsers whose calls are given. -/
def inside (calls : Calls) : Calls where
  expr := Counting.expr calls
  unary := Counting.unary calls
  binaryLinks := Counting.binaryLinks calls
  memberLinks := Counting.memberLinks calls
  -- A list goes on with itself, and each item takes a token at least.
  items close := turn close calls.expr (calls.items close)
  entries := turn .rightBrace (entry calls) calls.entries

/-- The parsers with room for a number of calls inside one another. -/
def upTo : Nat → Calls
  | 0 => never
  | n + 1 => inside (upTo n)

end Calls

/-! ## Steps -/

section

variable {x : Counting α} {s s' : ParserState}

/-- Two steps in a row, the second of which starts where the first succeeds. -/
theorem run_bind (x : Counting α) (f : α → Counting β) (s : ParserState) :
    (x >>= f).run s = (x.run s).bind fun r => match r.1 with
      | some a => (f a).run r.2
      | none => some (none, r.2) := by
  -- A failure keeps the state that it has come to.
  change (x.run s).bind _ = _
  refine congrArg _ (funext fun r => ?_)
  rcases r with ⟨_ | a, s'⟩ <;> rfl

/-- Two steps in a row, the first of which succeeds. -/
theorem bind_of_some {f : α → Counting β} {a : α} (h : x.run s = some (some a, s')) :
    (x >>= f).run s = (f a).run s' := by
  rw [run_bind, h, Option.bind_some]

/-- Two steps in a row, the first of which fails. -/
theorem bind_of_none {f : α → Counting β} (h : x.run s = some (none, s')) :
    (x >>= f).run s = some (none, s') := by
  rw [run_bind, h, Option.bind_some]

end

/-! ## Room for calls -/

/-- Wherever a parser ends, another one ends in the same way. -/
def Within (x y : Counting α) : Prop :=
  ∀ ⦃s o⦄, x.run s = some o → y.run s = some o

section

variable {x y x' y' : Counting α}

/-- A parser ends wherever it ends. -/
theorem within_refl (x : Counting α) : Within x x := fun _ _ => id

/-- Two parsers in a row end wherever both of the others do. -/
theorem Within.bind {f g : α → Counting β} (hx : Within x y) (hf : ∀ a, Within (f a) (g a)) :
    Within (x >>= f) (y >>= g) := by
  intro s o h
  rw [run_bind] at h
  obtain ⟨⟨result, s'⟩, hrun, h⟩ := Option.bind_eq_some_iff.1 h
  -- Where the first step fails there is no second one.
  cases result with
  | none => exact (bind_of_none (hx hrun)).trans h
  | some a => exact (bind_of_some (hx hrun)).trans (hf a h)

/-- Both take the same branch. -/
theorem Within.ite {p : Prop} [Decidable p] (hx : Within x y) (hx' : Within x' y') :
    Within (if p then x else x') (if p then y else y') := by
  split
  · exact hx
  · exact hx'

/-- What is done with an end is done wherever there is one. -/
theorem Within.run_bind {k : Option α × ParserState → Option (Option β × ParserState)}
    {s : ParserState} {o : Option β × ParserState} (hx : Within x y)
    (h : (x.run s).bind k = some o) : (y.run s).bind k = some o := by
  obtain ⟨r, hrun, h⟩ := Option.bind_eq_some_iff.1 h
  rw [hx hrun]
  exact h

/-- A parser with more ends has more of them when its levels are closed. -/
theorem Within.closing (hx : Within x y) : Within (closing x) (closing y) :=
  fun s o (h : (x.run s).bind _ = some o) => hx.run_bind h

/-- A parser with more ends has more of them when its level is left. -/
theorem Within.leaving (hx : Within x y) : Within (leaving x) (leaving y) :=
  fun s o (h : (x.run s).bind _ = some o) => hx.run_bind h

end

namespace Calls

variable {calls calls' : Calls}

/-- Wherever one of the parsers ends, the one of other calls ends in the same way. -/
structure Within (calls calls' : Calls) : Prop where
  expr : Counting.Within calls.expr calls'.expr
  unary : Counting.Within calls.unary calls'.unary
  binaryLinks : ∀ least left,
    Counting.Within (calls.binaryLinks least left) (calls'.binaryLinks least left)
  memberLinks : ∀ target, Counting.Within (calls.memberLinks target) (calls'.memberLinks target)
  items : ∀ close, Counting.Within (calls.items close) (calls'.items close)
  entries : Counting.Within calls.entries calls'.entries

/-- Parsers that never end end nowhere else either. -/
theorem never_within (calls : Calls) : never.Within calls where
  expr _ _ := nofun
  unary _ _ := nofun
  binaryLinks _ _ _ _ := nofun
  memberLinks _ _ _ := nofun
  items _ _ _ := nofun
  entries _ _ := nofun

namespace Within

variable (h : calls.Within calls')
include h

/-- A chain of operators. -/
theorem binary (least : Nat) :
    Counting.Within (Counting.binary calls least) (Counting.binary calls' least) :=
  (h.unary.bind fun left => h.binaryLinks least left).closing

/-- A conditional, or the condition alone. -/
theorem conditional :
    Counting.Within (Counting.conditional calls) (Counting.conditional calls') := by
  refine (h.binary _).bind fun condition => (within_refl _).bind fun found => .ite ?_ ?_
  · refine (h.binary _).bind fun thenBranch => (within_refl _).bind fun _ => ?_
    exact h.expr.bind fun elseBranch => within_refl _
  · exact within_refl _

/-- A whole expression. -/
theorem inside_expr : Counting.Within (Counting.expr calls) (Counting.expr calls') :=
  (within_refl _).bind fun _ => h.conditional.leaving

/-- The rest of a chain of operators. -/
theorem inside_binaryLinks (least : Nat) (left : Tree) :
    Counting.Within (Counting.binaryLinks calls least left)
      (Counting.binaryLinks calls' least left) := by
  refine (within_refl _).bind fun s => ?_
  cases BinaryOp.ofKind? s.cursor.kind with
  | none => exact within_refl _
  | some op =>
    -- An operator that binds less tightly ends the chain, with either calls.
    refine .ite (within_refl _) ((within_refl _).bind fun _ => (within_refl _).bind fun _ => ?_)
    refine (h.binary _).bind fun right => (within_refl _).bind fun link => ?_
    exact h.binaryLinks least link

/-- What follows a point. -/
theorem field (target : Tree) :
    Counting.Within (Counting.field calls target) (Counting.field calls' target) := by
  refine (within_refl _).bind fun t => ?_
  obtain ⟨kind, span⟩ := t
  cases kind with
  | ident name =>
    refine (within_refl _).bind fun found => .ite ?_ (within_refl _)
    exact (h.items _).bind fun args => within_refl _
  | _ => exact within_refl _

/-- What follows an opening bracket. -/
theorem index (target : Tree) :
    Counting.Within (Counting.index calls target) (Counting.index calls' target) :=
  h.expr.bind fun _ => within_refl _

/-- The rest of a chain of members. -/
theorem inside_memberLinks (target : Tree) :
    Counting.Within (Counting.memberLinks calls target) (Counting.memberLinks calls' target) := by
  refine (within_refl _).bind fun s => .ite ((within_refl _).bind fun _ => ?_) (within_refl _)
  refine (within_refl _).bind fun found => .ite ?_ ((within_refl _).bind fun found' => .ite ?_ ?_)
  · exact (h.field target).bind fun link => h.memberLinks link
  · exact (h.index target).bind fun link => h.memberLinks link
  · exact within_refl _

/-- What stands alone. -/
theorem primary : Counting.Within (Counting.primary calls) (Counting.primary calls') := by
  refine (within_refl _).bind fun s => ?_
  cases s.current? with
  | none => exact within_refl _
  | some t =>
    obtain ⟨kind, span⟩ := t
    cases kind with
    | ident name =>
      refine (within_refl _).bind fun _ => (within_refl _).bind fun found => .ite ?_ (within_refl _)
      exact (h.items _).bind fun args => within_refl _
    | symbol sym =>
      cases sym with
      | leftParen => exact (within_refl _).bind fun _ => h.expr.bind fun inner => within_refl _
      | leftBracket =>
        exact (within_refl _).bind fun _ => (h.items _).bind fun elements => within_refl _
      | leftBrace =>
        exact (within_refl _).bind fun _ => h.entries.bind fun members => within_refl _
      | _ => exact within_refl _
    | _ => exact within_refl _

/-- An operand of a binary operator. -/
theorem inside_unary : Counting.Within (Counting.unary calls) (Counting.unary calls') := by
  refine (within_refl _).bind fun s => ?_
  cases UnaryOp.ofKind? s.cursor.kind with
  | none => exact (h.primary.bind fun target => h.memberLinks target).closing
  | some op =>
    refine (within_refl _).bind fun _ => (within_refl _).bind fun sign => ?_
    exact h.unary.leaving.bind fun operand => within_refl _

/-- A key and its value. -/
theorem entry : Counting.Within (Counting.entry calls) (Counting.entry calls') :=
  h.expr.bind fun _ => (within_refl _).bind fun _ => h.expr.bind fun _ => within_refl _

omit h in
/-- One item of a list, with the rest of the list behind it. -/
theorem turn {close : Symbol} {item item' : Counting α} {loop loop' : Counting (List α)}
    (hitem : Counting.Within item item') (hloop : Counting.Within loop loop') :
    Counting.Within (Counting.turn close item loop) (Counting.turn close item' loop') := by
  refine (within_refl _).bind fun s => .ite (within_refl _) (hitem.bind fun first => ?_)
  refine (within_refl _).bind fun found => .ite ?_ (within_refl _)
  exact hloop.bind fun others => within_refl _

/-- The parsers of calls that have more ends have more ends. -/
theorem inside : calls.inside.Within calls'.inside where
  expr := h.inside_expr
  unary := h.inside_unary
  binaryLinks := h.inside_binaryLinks
  memberLinks := h.inside_memberLinks
  items close := turn h.expr (h.items close)
  entries := turn h.entry h.entries

end Within

/-- More room for calls changes no end. -/
theorem upTo_within {n m : Nat} (h : n ≤ m) : (upTo n).Within (upTo m) := by
  induction n generalizing m with
  | zero => exact never_within _
  | succ n ih =>
    -- The greater room is no less than one call either.
    obtain ⟨m, rfl⟩ := Nat.exists_eq_add_one_of_ne_zero (Nat.ne_zero_of_lt h)
    exact (ih (Nat.le_of_succ_le_succ h)).inside

end Calls

end Counting

end CelShell
