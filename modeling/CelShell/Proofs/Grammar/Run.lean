import CelShell.Proofs.Grammar.Basic

/-!
# Steps of the parser

What each parser does to a cursor, as equations on its runs. A cursor is seen here through the kinds
of the tokens that it has left, `Cursor.kinds`, and a run through what it consumes, `Cursor.Reads`;
the places of tokens and the numbers of nodes are of no concern. The parsers of a budget get one
equation for each case of the current token, so no proof about the grammar unfolds them.
-/

namespace CelShell

namespace Expr

/-! ## Bare trees -/

variable {α : Type}

/-- Trees are remarked one by one. -/
theorem remarkList_eq {β : Type} (f : α → β) (es : List (Expr α)) :
    remarkList f es = es.map (remark f) := by
  induction es with
  | nil => rfl
  | cons e rest ih => rw [remarkList, ih, List.map_cons]

/-- Entries are remarked one by one. -/
theorem remarkEntries_eq {β : Type} (f : α → β) (es : List (Expr α × Expr α)) :
    remarkEntries f es = es.map fun e => (remark f e.1, remark f e.2) := by
  induction es with
  | nil => rfl
  | cons e rest ih => rw [remarkEntries, ih, List.map_cons]

/-- Entries without their marks. -/
def bareEntries (es : List (Expr α × Expr α)) : List (Expr Unit × Expr Unit) :=
  es.map fun e => (e.1.bare, e.2.bare)

/-- An identifier has no part but its name. -/
@[simp] theorem bare_ident (m : α) (name : String) : (ident m name).bare = ident () name := rfl

/-- A constant has no part but its value. -/
@[simp] theorem bare_literal (m : α) (v : Literal) : (literal m v).bare = literal () v := rfl

/-- The marks of the operand go. -/
@[simp] theorem bare_select (m : α) (e : Expr α) (field : String) (t : Bool) :
    (select m e field t).bare = select () e.bare field t := rfl

/-- The marks of the arguments go. -/
@[simp] theorem bare_call (m : α) (f : String) (args : List (Expr α)) :
    (call m f args).bare = call () f (args.map bare) :=
  congrArg (call () f) (remarkList_eq _ args)

/-- The marks of the target and of the arguments go. -/
@[simp] theorem bare_invoke (m : α) (e : Expr α) (f : String) (args : List (Expr α)) :
    (invoke m e f args).bare = invoke () e.bare f (args.map bare) :=
  congrArg (invoke () e.bare f) (remarkList_eq _ args)

/-- The marks of the elements go. -/
@[simp] theorem bare_list (m : α) (es : List (Expr α)) :
    (list m es).bare = list () (es.map bare) := congrArg (list ()) (remarkList_eq _ es)

/-- The marks of the keys and of the values go. -/
@[simp] theorem bare_map (m : α) (es : List (Expr α × Expr α)) :
    (map m es).bare = map () (bareEntries es) := congrArg (map ()) (remarkEntries_eq _ es)

/-- The marks of the range and of the body go. -/
@[simp] theorem bare_comprehension (m : α) (l : Loop) (var : String) (range body : Expr α) :
    (comprehension m l var range body).bare = comprehension () l var range.bare body.bare := rfl

end Expr

namespace Cursor

/-! ## Cursors as the kinds of their tokens -/

/-- What the tokens say that are not yet consumed. -/
def kinds (c : Cursor) : List Kind := c.rest.map Token.kind

/-- One cursor becomes another by consuming tokens. -/
structure Reads (c : Cursor) (ks : List Kind) (c' : Cursor) : Prop where
  /-- The tokens consumed come first. -/
  kinds : c.kinds = ks ++ c'.kinds
  /-- Macros stay on or off. -/
  macrosOn : c'.macrosOn = c.macrosOn

variable {c c' c'' : Cursor} {k : Kind} {ks ks' : List Kind}

/-- Two cursors that differ neither in their tokens nor in their macros. -/
theorem Reads.of_eq (hr : c.rest = c'.rest) (hm : c'.macrosOn = c.macrosOn) : c.Reads [] c' :=
  ⟨by rw [Cursor.kinds, Cursor.kinds, hr]; rfl, hm⟩

/-- Nothing is read where nothing is consumed. -/
theorem Reads.refl (c : Cursor) : c.Reads [] c := ⟨rfl, rfl⟩

/-- What is read in two steps is read after each other. -/
theorem Reads.trans (h : c.Reads ks c') (h' : c'.Reads ks' c'') : c.Reads (ks ++ ks') c'' :=
  ⟨by rw [h.kinds, h'.kinds, List.append_assoc], by rw [h'.macrosOn, h.macrosOn]⟩

/-- The tokens left are those that were there less those consumed. -/
theorem Reads.rest_eq {rest : List Kind} (h : c.Reads ks c') (hc : c.kinds = ks ++ rest) :
    c'.kinds = rest := List.append_cancel_left (h.kinds.symm.trans hc)

/-- Consuming the current token. -/
theorem reads_skip (h : c.kinds = k :: ks) : c.Reads [k] c.skip := by
  cases hr : c.rest with
  | nil => simp [kinds, hr] at h
  | cons t rest =>
    simp only [kinds, hr, List.map_cons, List.cons.injEq] at h
    constructor
    · simp [kinds, skip, hr, h.1]
    · simp [skip, hr]

/-- Consuming the current token leaves those after it. -/
theorem kinds_skip (h : c.kinds = k :: ks) : c.skip.kinds = ks :=
  (reads_skip h).rest_eq h

/-- The current token is the first of those left. -/
theorem kind_of_kinds (h : c.kinds = k :: ks) : c.kind = k := by
  cases hr : c.rest with
  | nil => simp [kinds, hr] at h
  | cons t rest =>
    simp only [kinds, hr, List.map_cons, List.cons.injEq] at h
    simp [kind, hr, h.1]

/-- Where no token is left the current one is the end mark. -/
theorem kind_of_nil (h : c.kinds = []) : c.kind = .eof := by
  cases hr : c.rest with
  | nil => simp [kind, hr]
  | cons t rest => simp [kinds, hr] at h

/-- A current token other than the end stands first among the tokens. -/
theorem kinds_of_kind (h : c.kind ≠ .eof) : ∃ ks, c.kinds = c.kind :: ks := by
  cases hk : c.kinds with
  | nil => exact absurd (kind_of_nil hk) h
  | cons k ks => exact ⟨ks, by rw [kind_of_kinds hk]⟩

/-- A cursor is at its end where the current token is the end mark. -/
theorem atEnd_iff : c.atEnd = true ↔ c.kind = .eof := by
  cases hr : c.rest with
  | nil => simp [atEnd, kind, hr]
  | cons t rest => simp [atEnd, kind, hr]

/-- The first of the tokens left, with its place. -/
theorem rest_of_kinds (h : c.kinds = k :: ks) : ∃ span rest, c.rest = ⟨k, span⟩ :: rest := by
  cases hr : c.rest with
  | nil => simp [kinds, hr] at h
  | cons t rest =>
    simp only [kinds, hr, List.map_cons, List.cons.injEq] at h
    exact ⟨t.span, rest, by rw [← h.1]⟩

/-- A symbol is the current token exactly if it stands first. -/
theorem at?_symbol (c : Cursor) (s : Symbol) :
    c.at? (.symbol s) = true ↔ ∃ ks, c.kinds = .symbol s :: ks := by
  cases hr : c.rest with
  | nil => simp [at?, kinds, hr]
  | cons t rest =>
    simp only [at?, kinds, hr, List.map_cons, List.cons.injEq, exists_and_left, exists_eq',
      and_true]
    cases t.kind <;> simp [Kind.same]

end Cursor

namespace Parser

variable {α β : Type} {c c' c'' : Cursor} {k : Kind} {ks : List Kind}

/-! ## Runs -/

/-- A run of two parsers is a run of the first and, where it succeeds, one of the second. -/
theorem run_bind (p : Parser α) (f : α → Parser β) (c : Cursor) :
    (p >>= f) c = match p c with
      | .ok a c' => f a c'
      | .error e c' => .error e c' := by
  change EStateM.bind p f c = _
  unfold EStateM.bind
  cases p c <;> rfl

/-- Two parsers in a row succeed exactly if both do. -/
theorem bind_eq_ok {p : Parser α} {f : α → Parser β} {b : β} :
    (p >>= f) c = .ok b c'' ↔ ∃ a c', p c = .ok a c' ∧ f a c' = .ok b c'' := by
  rw [run_bind]
  cases p c with
  | ok a c' => simp only [EStateM.Result.ok.injEq]; grind
  | error e c' => simp

/-- Two parsers in a row, the first of which succeeds. -/
theorem bind_of_ok {p : Parser α} {f : α → Parser β} {a : α} (h : p c = .ok a c') :
    (p >>= f) c = f a c' := by
  rw [run_bind, h]

/-- A value consumes nothing. -/
theorem run_pure (a : α) (c : Cursor) : (pure a : Parser α) c = .ok a c := rfl

/-- A value is the only result of its parser. -/
theorem pure_eq_ok {a b : α} : (pure a : Parser α) c = .ok b c' ↔ a = b ∧ c = c' := by
  rw [run_pure, EStateM.Result.ok.injEq]

/-- The cursor is read without moving it. -/
theorem run_get (c : Cursor) : (get : Parser Cursor) c = .ok c c := rfl

/-- The current token is consumed, whatever it is. -/
theorem run_advance (c : Cursor) : advance c = .ok () c.skip := rfl

/-- A new node gets the next number and consumes nothing. -/
theorem run_node (make : Mark → Tree) (span : Span) (c : Cursor) :
    node make span c = .ok (make ⟨c.nextId, span⟩) { c with nextId := c.nextId + 1 } := rfl

/-- A new node is made with a mark of its own and consumes nothing. -/
theorem exists_run_node (make : Mark → Tree) (span : Span) (c : Cursor) :
    ∃ m c', node make span c = .ok (make m) c' ∧ c.Reads [] c' :=
  ⟨_, _, run_node make span c, .of_eq rfl rfl⟩

/-- A node that was made has a mark, and nothing was consumed for it. -/
theorem node_eq_ok {make : Mark → Tree} {span : Span} {t : Tree}
    (h : node make span c = .ok t c') : ∃ m, t = make m ∧ c.Reads [] c' := by
  obtain ⟨m, c₁, hn, hr⟩ := exists_run_node make span c
  rw [hn, EStateM.Result.ok.injEq] at h
  obtain ⟨rfl, rfl⟩ := h
  exact ⟨m, rfl, hr⟩

/-! ## Symbols -/

/-- A symbol that stands first is skipped. -/
theorem run_skip_of_eq {s : Symbol} (h : c.kinds = .symbol s :: ks) :
    skip s c = .ok true c.skip := by
  have hat : c.at? (.symbol s) = true := (c.at?_symbol s).2 ⟨ks, h⟩
  unfold skip
  rw [bind_of_ok (run_get c), if_pos hat]
  rfl

/-- Another token stays. -/
theorem run_skip_of_ne {s : Symbol} (h : ∀ ks, c.kinds ≠ .symbol s :: ks) :
    skip s c = .ok false c := by
  have hat : ¬ c.at? (.symbol s) = true := fun ht => by
    obtain ⟨ks, hk⟩ := (c.at?_symbol s).1 ht
    exact h ks hk
  unfold skip
  rw [bind_of_ok (run_get c), if_neg hat]
  rfl

/-- What skipping a symbol does. -/
theorem skip_eq_ok {s : Symbol} {b : Bool} (h : skip s c = .ok b c') :
    b = true ∧ c.Reads [.symbol s] c' ∨
      b = false ∧ c = c' ∧ ∀ ks, c.kinds ≠ .symbol s :: ks := by
  by_cases hk : ∃ ks, c.kinds = .symbol s :: ks
  · obtain ⟨ks, hk⟩ := hk
    rw [run_skip_of_eq hk, EStateM.Result.ok.injEq] at h
    obtain ⟨rfl, rfl⟩ := h
    exact .inl ⟨rfl, Cursor.reads_skip hk⟩
  · rw [not_exists] at hk
    rw [run_skip_of_ne hk, EStateM.Result.ok.injEq] at h
    obtain ⟨rfl, rfl⟩ := h
    exact .inr ⟨rfl, rfl, hk⟩

/-- A symbol that has to come and stands first is consumed. -/
theorem run_expect_of_eq {s : Symbol} (h : c.kinds = .symbol s :: ks) :
    expect s c = .ok () c.skip := by
  unfold expect
  rw [bind_of_ok (run_skip_of_eq h)]
  rfl

/-- A symbol that had to come was consumed. -/
theorem expect_eq_ok {s : Symbol} (h : expect s c = .ok () c') : c.Reads [.symbol s] c' := by
  unfold expect at h
  obtain ⟨b, c₁, hs, h⟩ := bind_eq_ok.1 h
  rcases skip_eq_ok hs with ⟨rfl, hr⟩ | ⟨rfl, -, -⟩
  · rw [if_pos rfl, pure_eq_ok] at h
    exact h.2 ▸ hr
  · simp [failWith, run_bind, run_get] at h
    cases h

/-! ## Nodes -/

/-- What a minus sign makes of an operand without its marks. -/
theorem negation_bare (t : Tree) :
    (∃ m v v', t = .literal m v ∧ negated? v = some v' ∧
        Grammar.negation t.bare = .literal () v') ∨
      ((∀ m v, t = .literal m v → negated? v = none) ∧
        Grammar.negation t.bare = .call () "-_" [t.bare]) := by
  -- Only numbers have an opposite, so the constants go one by one and the rest are calls.
  cases t with
  | literal m v =>
    cases v with
    | int n =>
      by_cases hn : n = Int64.minValue
      · -- The least int has no opposite, so its negation stays a call.
        subst hn
        exact .inr ⟨by rintro m' v' ⟨⟩; decide, by rw [Expr.bare_literal, Grammar.negation]; simp⟩
      · have hlow : -2 ^ 63 < n.toInt := by
          have := n.le_toInt
          have hne : n.toInt ≠ Int64.minValue.toInt := fun h => hn (Int64.toInt_inj.1 h)
          rw [Int64.toInt_minValue] at hne
          omega
        have hneg : negated? (.int n) = some (.int (-n)) := by
          have := n.toInt_lt
          have hi : Number.int64? (-n.toInt) = some (-n) := by
            rw [Number.int64?, if_pos (by omega), Int64.ofInt_neg, Int64.ofInt_toInt]
          rw [negated?, hi]; rfl
        refine .inl ⟨m, _, _, rfl, hneg, ?_⟩
        rw [Expr.bare_literal, Grammar.negation, if_neg hn]
    | double d => exact .inl ⟨m, _, _, rfl, rfl, by rw [Expr.bare_literal, Grammar.negation]⟩
    | _ =>
      refine .inr ⟨?_, by rw [Expr.bare_literal, Grammar.negation] <;> simp⟩
      rintro m' v' ⟨⟩
      rfl
  | _ => exact .inr ⟨by simp, by simp [Grammar.negation]⟩

/-- A minus sign becomes a negation. -/
theorem run_negate (t : Tree) (span : Span) (c : Cursor) :
    ∃ t' c', unaryNode .negate t span c = .ok t' c' ∧ t'.bare = Grammar.negation t.bare ∧
      c.Reads [] c' := by
  -- The sign goes into a constant that has an opposite and stays a call elsewhere.
  rcases negation_bare t with ⟨m, v, v', rfl, hv, hn⟩ | ⟨hv, hn⟩
  · obtain ⟨m', c', hnode, hr⟩ := exists_run_node (fun m => .literal m v') span c
    refine ⟨.literal m' v', c', ?_, by rw [hn, Expr.bare_literal], hr⟩
    simp only [unaryNode, hv]
    exact hnode
  · obtain ⟨m', c', hnode, hr⟩ := exists_run_node (fun m => .call m "-_" [t]) span c
    refine ⟨.call m' "-_" [t], c', ?_, by rw [hn, Expr.bare_call]; rfl, hr⟩
    unfold unaryNode
    cases t with
    | literal m v => simp only [hv m v rfl]; exact hnode
    | _ => exact hnode

/-- An exclamation mark becomes a call. -/
theorem run_not (t : Tree) (span : Span) (c : Cursor) :
    ∃ t' c', unaryNode .not t span c = .ok t' c' ∧ t'.bare = .call () "!_" [t.bare] ∧
      c.Reads [] c' := by
  obtain ⟨m, c', hnode, hr⟩ := exists_run_node (fun m => .call m "!_" [t]) span c
  exact ⟨_, c', hnode, by rw [Expr.bare_call]; rfl, hr⟩

/-- A call without a target becomes the tree that the grammar gives it, if there is one. -/
theorem run_globalCall (name : String) (args : List Tree) (span : Span) (c : Cursor) :
    match Grammar.globalCall? c.macrosOn name (args.map Expr.bare) with
    | some e => ∃ t c', globalCall name args span c = .ok t c' ∧ t.bare = e ∧ c.Reads [] c'
    | none => ∃ e, globalCall name args span c = .error e c := by
  -- Without macros, or with any other number of arguments, the call stays one.
  have plain : ∃ t c', node (fun m => .call m name args) span c = .ok t c' ∧
      t.bare = .call () name (args.map Expr.bare) ∧ c.Reads [] c' := by
    obtain ⟨m, c', hnode, hr⟩ := exists_run_node (fun m => .call m name args) span c
    exact ⟨_, c', hnode, Expr.bare_call _ _ _, hr⟩
  unfold globalCall Grammar.globalCall?
  rw [bind_of_ok (run_get c)]
  cases hm : c.macrosOn && name == "has" with
  | false => exact plain
  | true =>
    match args with
    | [] | _ :: _ :: _ => simpa using plain
    -- A selection that is no test yet becomes one, and any other single argument is an error.
    | [.select m' operand field false] =>
      obtain ⟨m, c', hnode, hr⟩ :=
        exists_run_node (fun m => .select m operand field true) span c
      exact ⟨_, c', hnode, Expr.bare_select _ _ _ _, hr⟩
    | [.select m' operand field true] => exact ⟨_, rfl⟩
    | [.ident ..] | [.literal ..] | [.call ..] | [.invoke ..] | [.list ..] | [.map ..]
    | [.comprehension ..] => exact ⟨_, rfl⟩

/-- A call on a target becomes the tree that the grammar gives it, if there is one. -/
theorem run_receiverCall (target : Tree) (name : String) (args : List Tree) (span : Span)
    (c : Cursor) :
    match Grammar.receiverCall? c.macrosOn target.bare name (args.map Expr.bare) with
    | some e =>
      ∃ t c', receiverCall target name args span c = .ok t c' ∧ t.bare = e ∧ c.Reads [] c'
    | none => ∃ e, receiverCall target name args span c = .error e c := by
  -- With a name that is no loop, or any other number of arguments, the call stays one.
  have plain : ∃ t c', node (fun m => .invoke m target name args) span c = .ok t c' ∧
      t.bare = .invoke () target.bare name (args.map Expr.bare) ∧ c.Reads [] c' := by
    obtain ⟨m, c', hnode, hr⟩ := exists_run_node (fun m => .invoke m target name args) span c
    exact ⟨_, c', hnode, Expr.bare_invoke _ _ _ _, hr⟩
  unfold receiverCall Grammar.receiverCall?
  rw [bind_of_ok (run_get c)]
  cases c.macrosOn with
  | false => exact plain
  | true =>
    cases Loop.ofName? name with
    | none => exact plain
    | some loop =>
      match args with
      | [] | [_] | _ :: _ :: _ :: _ => simpa using plain
      -- A loop over a name becomes one, and any other first of two arguments is an error.
      | [.ident m' var, body] =>
        obtain ⟨m, c', hnode, hr⟩ :=
          exists_run_node (fun m => .comprehension m loop var target body) span c
        exact ⟨_, c', hnode, Expr.bare_comprehension _ _ _ _ _, hr⟩
      | [.select .., _] | [.literal .., _] | [.call .., _] | [.invoke .., _] | [.list .., _]
      | [.map .., _] | [.comprehension .., _] => exact ⟨_, rfl⟩

/-- A call that became a tree became the one that the grammar gives it. -/
theorem eq_ok_of_run {e? : Option (Expr Unit)} {p : Parser Tree} {t : Tree}
    (hrun : match e? with
      | some e => ∃ t c', p c = .ok t c' ∧ t.bare = e ∧ c.Reads [] c'
      | none => ∃ e, p c = .error e c)
    (h : p c = .ok t c') : e? = some t.bare ∧ c.Reads [] c' := by
  cases e? with
  | none =>
    obtain ⟨e, he⟩ := hrun
    rw [he] at h
    cases h
  | some e =>
    obtain ⟨t₁, c₁, ht, hbare, hr⟩ := hrun
    rw [ht, EStateM.Result.ok.injEq] at h
    obtain ⟨rfl, rfl⟩ := h
    exact ⟨by rw [hbare], hr⟩

namespace Level

/-! ## The parsers of one budget -/

variable {l : Level} {below : Option Level} {target left : Tree} {least : Nat}

/-- Without a level left no whole expression is read. -/
theorem run_expr_none (c : Cursor) :
    (ofBelow none).expr c = .error (some c.tooDeepError) c := rfl

/-- A chain of members ends at a token that is neither a point nor an opening bracket. -/
theorem run_memberChain_stop (hd : c.kind ≠ .symbol .dot) (hb : c.kind ≠ .symbol .leftBracket) :
    (ofBelow below).memberChain target c = .ok target c := by
  -- Like each parser of a budget, this one first looks at the current token.
  change ((get : Parser Cursor) >>= _) c = _
  rw [bind_of_ok (run_get c)]
  cases hk : c.kind with
  | symbol s => cases s <;> first | exact absurd hk hd | exact absurd hk hb | rfl
  | _ => rfl

/-- A point goes on with a field, in the level below. -/
theorem run_memberChain_dot (h : c.kind = .symbol .dot) :
    (ofBelow (some l)).memberChain target c = (l.field target >>= l.memberChain) c.skip := by
  change ((get : Parser Cursor) >>= _) c = _
  rw [bind_of_ok (run_get c), h]
  rfl

/-- An opening bracket goes on with an index, in the level below. -/
theorem run_memberChain_bracket (h : c.kind = .symbol .leftBracket) :
    (ofBelow (some l)).memberChain target c = (l.index target >>= l.memberChain) c.skip := by
  change ((get : Parser Cursor) >>= _) c = _
  rw [bind_of_ok (run_get c), h]
  rfl

/-- Without a level left a chain of members cannot go on. -/
theorem run_memberChain_none (h : c.kind = .symbol .dot ∨ c.kind = .symbol .leftBracket) :
    (ofBelow none).memberChain target c = .error (some c.tooDeepError) c := by
  change ((get : Parser Cursor) >>= _) c = _
  rcases h with h | h <;> rw [bind_of_ok (run_get c), h] <;> rfl

/-- An operand starts with an operator, or it is a chain of members. -/
theorem run_unary_operator {op : UnaryOp} (h : UnaryOp.ofKind? c.kind = some op) :
    (ofBelow (some l)).unary c =
      (l.unary >>= fun operand =>
        unaryNode op operand (c.span.cover operand.mark.span)) c.skip := by
  change ((get : Parser Cursor) >>= _) c = _
  rw [bind_of_ok (run_get c), h]
  rfl

/-- Without a level left no operand is read behind a sign. -/
theorem run_unary_none {op : UnaryOp} (h : UnaryOp.ofKind? c.kind = some op) :
    (ofBelow none).unary c = .error (some c.tooDeepError) c := by
  change ((get : Parser Cursor) >>= _) c = _
  rw [bind_of_ok (run_get c), h]
  rfl

/-- An operand without a sign is a chain of members of the same level. -/
theorem run_unary_member (h : UnaryOp.ofKind? c.kind = none) :
    (ofBelow below).unary c =
      (primary (ofBelow below).expr >>= (ofBelow below).memberChain) c := by
  change ((get : Parser Cursor) >>= _) c = _
  rw [bind_of_ok (run_get c), h]
  rfl

/-- A chain of operators ends at a token that is none. -/
theorem run_binaryChain_stop (h : BinaryOp.ofKind? c.kind = none) :
    (ofBelow below).binaryChain least left c = .ok left c := by
  change ((get : Parser Cursor) >>= _) c = _
  rw [bind_of_ok (run_get c), h]
  rfl

/-- A chain of operators ends at an operator that binds looser. -/
theorem run_binaryChain_loose {op : BinaryOp} (h : BinaryOp.ofKind? c.kind = some op)
    (hlt : op.binding < least) : (ofBelow below).binaryChain least left c = .ok left c := by
  change ((get : Parser Cursor) >>= _) c = _
  rw [bind_of_ok (run_get c), h]
  cases below <;> simp only [hlt, if_true] <;> rfl

/-- Without a level left a chain of operators cannot go on. -/
theorem run_binaryChain_none {op : BinaryOp} (h : BinaryOp.ofKind? c.kind = some op)
    (hle : least ≤ op.binding) :
    (ofBelow none).binaryChain least left c = .error (some c.tooDeepError) c := by
  change ((get : Parser Cursor) >>= _) c = _
  rw [bind_of_ok (run_get c), h]
  simp only [Nat.not_lt.2 hle, if_false]
  rfl

/-- A link of a chain of operators: the right operand, then the rest of the chain. -/
theorem run_binaryChain_link {op : BinaryOp} (h : BinaryOp.ofKind? c.kind = some op)
    (hle : least ≤ op.binding) :
    (ofBelow (some l)).binaryChain least left c =
      (l.binary (op.binding + 1) >>= fun right =>
        node (fun m => .call m op.function [left, right]) (left.mark.span.cover right.mark.span)
          >>= l.binaryChain least) c.skip := by
  change ((get : Parser Cursor) >>= _) c = _
  rw [bind_of_ok (run_get c), h]
  simp only [Nat.not_lt.2 hle, if_false]
  rfl

/-! ## What stands alone, by its first token -/

variable (expr : Parser Tree) {name : String}

/-- A constant stands alone. -/
theorem run_primary_literal {value : Literal} (h : c.kinds = .literal value :: ks) :
    ∃ span : Span, primary expr c = node (fun m => .literal m value) span c.skip := by
  obtain ⟨span, rest, hr⟩ := Cursor.rest_of_kinds h
  refine ⟨span, ?_⟩
  rw [primary, bind_of_ok (run_get c), hr]
  rfl

/-- A name stands alone, unless a bracket after it makes it the name of a call. -/
theorem run_primary_ident (h : c.kinds = .ident name :: ks) :
    ∃ span : Span, primary expr c = (do
      if ← Parser.skip .leftParen then
        let args ← items expr .rightParen
        globalCall name args (span.cover (← get).previous)
      else node (fun m => .ident m name) span) c.skip := by
  obtain ⟨span, rest, hr⟩ := Cursor.rest_of_kinds h
  refine ⟨span, ?_⟩
  rw [primary, bind_of_ok (run_get c), hr]
  rfl

/-- Parentheses hold a whole expression and leave no node. -/
theorem run_primary_parens (h : c.kinds = .symbol .leftParen :: ks) :
    primary expr c = (do let inner ← expr; expect .rightParen; return inner) c.skip := by
  obtain ⟨span, rest, hr⟩ := Cursor.rest_of_kinds h
  rw [primary, bind_of_ok (run_get c), hr]
  rfl

/-- A list holds whole expressions. -/
theorem run_primary_list (h : c.kinds = .symbol .leftBracket :: ks) :
    ∃ span : Span, primary expr c = (do
      let elements ← items expr .rightBracket
      node (fun m => .list m elements) (span.cover (← get).previous)) c.skip := by
  obtain ⟨span, rest, hr⟩ := Cursor.rest_of_kinds h
  refine ⟨span, ?_⟩
  rw [primary, bind_of_ok (run_get c), hr]
  rfl

/-- A map holds entries of two whole expressions each. -/
theorem run_primary_map (h : c.kinds = .symbol .leftBrace :: ks) :
    ∃ span : Span, primary expr c = (do
      let entries ← items (do
        let key ← expr
        expect .colon
        let value ← expr
        return (key, value)) .rightBrace
      node (fun m => .map m entries) (span.cover (← get).previous)) c.skip := by
  obtain ⟨span, rest, hr⟩ := Cursor.rest_of_kinds h
  refine ⟨span, ?_⟩
  rw [primary, bind_of_ok (run_get c), hr]
  rfl

/-- A name after a point is that of a field, or of a function if a bracket opens after it. -/
theorem run_field (l : Level) (target : Tree) (h : c.kinds = .ident name :: ks) :
    ∃ span : Span, l.field target c = (do
      if ← Parser.skip .leftParen then
        let args ← items l.expr .rightParen
        receiverCall target name args (target.mark.span.cover (← get).previous)
      else node (fun m => .select m target name false) (target.mark.span.cover span)) c.skip := by
  obtain ⟨span, rest, hr⟩ := Cursor.rest_of_kinds h
  refine ⟨span, ?_⟩
  rw [field, bind_of_ok (run_get c), hr]
  rfl

end Level

end Parser

end CelShell
