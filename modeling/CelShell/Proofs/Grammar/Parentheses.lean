import CelShell.Proofs.Grammar.Signs

/-!
# No pair of parentheses is idle

The printer puts an operand into parentheses only where they are needed: without any one pair, the
text of a parsed expression is refused or read as another expression
(`Expr.parse_without_parentheses`).

Tokens that derive an expression *cover* its pieces: they have a parenthesis for each one of the
pieces, since an operand that binds too loosely for its place can only be derived from tokens in
parentheses, and their constants come out with the same signs. So an expression has no text with
fewer parentheses than the printer writes. The signs have to be followed because the two zeros are
the same constant and yet only one of them needs parentheses before a point: a text without a pair
might otherwise be read as the same expression with the sign of a zero lost.
-/

namespace CelShell

namespace Grammar

open Piece (group separated kindsOf kindsOf_append kindsOf_parenthesized
  kindsOf_constant)

variable {m : Bool} {level : Nat} {ks ks' : List Kind} {ps ps' : List Piece}
  {pss : List (List Piece)} {e : Expr Unit}

/-! ## What tokens cover -/

/-- Whether a token counts as a parenthesis. A negative constant that is one token does, since it
would stand where one with a sign of its own needs parentheses; no text has such a token. -/
def countsAsParen : Kind → Bool
  | .symbol .leftParen => true
  | .literal v => v.isNegative
  | _ => false

/-- The number of parentheses in some tokens. -/
def parens (ks : List Kind) : Nat := ks.countP countsAsParen

/-- Parentheses are counted run by run. -/
theorem parens_append (ks ks' : List Kind) : parens (ks ++ ks') = parens ks + parens ks' :=
  List.countP_append

/-- A pair of parentheses counts once, by the one that opens it. -/
theorem parens_parenthesized (ks : List Kind) :
    parens (.symbol .leftParen :: (ks ++ [.symbol .rightParen])) = parens ks + 1 := by
  rw [parens, List.countP_cons, List.countP_append]
  rfl

/-- Tokens cover pieces if they have as many parentheses at least and the same signs, and the pieces
can be read. -/
structure Covers (ks : List Kind) (ps : List Piece) : Prop where
  /-- The names and the constants can be read. -/
  readable : ∀ p ∈ ps, p.IsReadable
  /-- There is a parenthesis for each one of the pieces. -/
  parens : parens (kindsOf ps) ≤ parens ks
  /-- The doubles have the same signs, whatever comes behind them. -/
  signs : ∀ n rest, signs n (ks ++ rest) = signs n (kindsOf ps ++ rest)

/-- What covers two runs of pieces covers the two after each other. -/
theorem Covers.append (h : Covers ks ps) (h' : Covers ks' ps') :
    Covers (ks ++ ks') (ps ++ ps') where
  readable := List.forall_mem_append.2 ⟨h.readable, h'.readable⟩
  parens := by
    rw [kindsOf_append, parens_append, parens_append]
    exact Nat.add_le_add h.parens h'.parens
  signs := fun n rest => by
    rw [kindsOf_append, List.append_assoc, List.append_assoc, h.signs,
      signs_congr (h'.signs · rest)]

/-- No tokens cover no pieces. -/
theorem covers_nil : Covers [] [] := ⟨List.forall_mem_nil _, Nat.le_refl _, fun _ _ => rfl⟩

/-- A symbol covers its own piece. -/
theorem covers_symbol (s : Symbol) : Covers [.symbol s] [.symbol s] :=
  ⟨List.forall_mem_singleton.2 trivial, Nat.le_refl _, fun _ _ => rfl⟩

/-- A name covers its own piece. -/
theorem covers_name {name : String} (h : IsName name) : Covers [.ident name] [.name name] :=
  ⟨List.forall_mem_singleton.2 h, Nat.le_refl _, fun _ _ => rfl⟩

/-- A space needs no token. -/
theorem covers_space : Covers [] [.space] :=
  ⟨List.forall_mem_singleton.2 trivial, Nat.le_refl _, fun _ _ => rfl⟩

/-- A comma before nothing, which a list may end in, needs no piece. -/
theorem covers_comma_nil : Covers [.symbol .comma] [] :=
  ⟨List.forall_mem_nil _, Nat.le_refl _, fun _ _ => rfl⟩

/-- A piece before others. -/
theorem Covers.cons {k : Kind} {p : Piece} (h : Covers ks ps) (hp : Covers [k] [p]) :
    Covers (k :: ks) (p :: ps) := hp.append h

/-- A space may be put before what is covered. -/
theorem Covers.space (h : Covers ks ps) : Covers ks (.space :: ps) := covers_space.append h

/-! ## Operands -/

/-- An operand that binds as tightly as its place demands stands without parentheses. -/
theorem group_of_le {binding demanded : Nat} (h : demanded ≤ binding) (ps : List Piece) :
    group binding demanded ps = ps := if_neg (Nat.not_lt.2 h)

/-- What a pair of parentheses adds to pieces. -/
theorem parens_group (binding demanded : Nat) (ps : List Piece) :
    parens (kindsOf (group binding demanded ps)) =
      parens (kindsOf ps) + if binding < demanded then 1 else 0 := by
  unfold group
  split
  · rw [kindsOf_parenthesized, parens_parenthesized]
  · rfl

/-- Parentheses around an operand are no matter of what can be read. -/
theorem readable_group {binding demanded : Nat} :
    (∀ p ∈ group binding demanded ps, p.IsReadable) ↔ ∀ p ∈ ps, p.IsReadable := by
  unfold group
  split
  · constructor
    · exact fun h p hp => h p (List.mem_cons_of_mem _ (List.mem_append_left _ hp))
    · exact fun h => List.forall_mem_cons.2
        ⟨trivial, List.forall_mem_append.2 ⟨h, List.forall_mem_singleton.2 trivial⟩⟩
  · rfl

/-- What covers an operand covers it in a place that demands less. -/
theorem Covers.loosen {binding demanded demanded' : Nat} (hle : demanded' ≤ demanded)
    (h : Covers ks (group binding demanded ps)) : Covers ks (group binding demanded' ps) where
  readable := readable_group.2 (readable_group.1 h.readable)
  parens := by
    have hparens := h.parens
    rw [parens_group] at hparens ⊢
    refine Nat.le_trans ?_ hparens
    split_ifs <;> omega
  signs := fun n rest => by rw [h.signs, signs_group, signs_group]

/-- Tokens in parentheses cover an operand in any place. -/
theorem Covers.parenthesized (h : Covers ks ps) (binding demanded : Nat) :
    Covers (.symbol .leftParen :: (ks ++ [.symbol .rightParen])) (group binding demanded ps) where
  readable := readable_group.2 h.readable
  parens := by
    have hparens := h.parens
    rw [parens_group, parens_parenthesized]
    split_ifs <;> omega
  signs := fun n rest => by
    rw [signs_group, ← h.signs, List.cons_append, List.append_assoc]
    exact signs_parenthesized ks rest n

/-! ## Constants -/

/-- The text of a constant has no parentheses. -/
theorem parens_constant {v : Literal} (hv : v.IsWritable) : parens v.kinds = 0 := by
  unfold Literal.kinds
  split
  · next hsign =>
    have hopposite := (Literal.opposite_of_isNegative hv hsign).2.1
    simp [parens, countsAsParen, hopposite]
  · next hsign => simp [parens, countsAsParen, hsign]

/-- A constant binds as a member does, unless it is written with a sign. -/
theorem binding_literal (v : Literal) :
    (Expr.literal () v).binding = if v.isNegative then Binding.unary else Binding.member := rfl

/-- A constant that is one token stands alone. -/
theorem covers_literal {v : Literal} (hv : v.IsWritable) (demanded : Nat)
    (hdemanded : demanded ≤ Binding.member) :
    Covers [.literal v] (group (Expr.literal () v).binding demanded [.constant v]) where
  readable := readable_group.2 (List.forall_mem_singleton.2 hv)
  parens := by
    rw [parens_group, kindsOf_constant, parens_constant hv, binding_literal, Grammar.parens,
      List.countP_singleton, countsAsParen]
    -- Without a sign it binds as tightly as any place demands.
    cases v.isNegative with
    | true => split_ifs <;> simp_all
    | false => simp [Nat.not_lt.2 hdemanded]
  signs := fun n rest => by
    rw [signs_group, kindsOf_constant, signs_constant]
    rfl

/-- Tokens that give a constant its sign. -/
theorem covers_constant {v : Literal} (hv : v.IsWritable)
    (hsigns : ∀ n rest, signs n (ks ++ rest) = signOf n (.literal v) ++ signs false rest) :
    Covers ks [.constant v] where
  readable := List.forall_mem_singleton.2 hv
  parens := by
    rw [kindsOf_constant, parens_constant hv]
    exact Nat.zero_le _
  signs := fun n rest => by
    rw [kindsOf_constant, signs_constant, hsigns]

/-- A constant binds at least as tightly as what has a sign. -/
theorem unary_le_binding_literal (v : Literal) :
    Binding.unary ≤ (Expr.literal () v).binding := by
  rw [binding_literal]
  split <;> decide

/-- A minus sign before a constant gives the constant of the other sign. -/
theorem Covers.opposite {v : Literal} (v' : Literal)
    (h : Covers ks (group (Expr.literal () v).binding Binding.unary [.constant v]))
    (hwritable : v.IsWritable → v'.IsWritable)
    (hsign : ∀ n, signOf (!n) (.literal v) = signOf n (.literal v')) :
    Covers (.symbol .minus :: ks)
      (group (Expr.literal () v').binding Binding.unary [.constant v']) := by
  rw [group_of_le (unary_le_binding_literal v)] at h
  rw [group_of_le (unary_le_binding_literal v')]
  refine covers_constant (hwritable (h.readable _ (List.mem_singleton_self _))) fun n rest => ?_
  have hsigns := h.signs (!n) rest
  rw [kindsOf_constant, signs_constant, hsign] at hsigns
  exact hsigns

/-- A minus sign negates a constant, and is a call before all else. -/
theorem Covers.negation (h : Covers ks (group e.binding Binding.unary e.pieces)) :
    Covers (.symbol .minus :: ks)
      (group (Grammar.negation e).binding Binding.unary (Grammar.negation e).pieces) := by
  have hcall : Grammar.negation e = .call () UnaryOp.negate.function [e] →
      Covers (.symbol .minus :: ks)
        (group (Grammar.negation e).binding Binding.unary (Grammar.negation e).pieces) := by
    intro hneg
    rw [hneg, Expr.binding_unary, group_of_le (Nat.le_refl _), Expr.pieces_unary]
    exact h.cons (covers_symbol .minus)
  cases e with
  | literal mark v =>
    cases v with
    | int n =>
      by_cases hn : n = Int64.minValue
      · exact hcall (by rw [Grammar.negation, if_pos hn]; rfl)
      · rw [Grammar.negation, if_neg hn]
        exact h.opposite (.int (-n)) (fun _ => neg_ne_minValue hn) fun _ => rfl
    | double d =>
      -- The sign of the double is the opposite, and so is what a minus sign makes of it.
      exact h.opposite (.double d.neg) id fun n => by simp [signOf, Double.neg]
    | _ => exact hcall rfl
  | _ => exact hcall rfl

/-! ## Expressions -/

/-- Items between commas, of which the last may have a comma behind it. -/
theorem covers_separated (h : Covers ks ps) (h' : Covers ks' (separated pss)) :
    Covers (ks ++ .symbol .comma :: ks') (separated (ps :: pss)) := by
  cases pss with
  | nil => simpa [Piece.separated] using h.append (covers_comma_nil.append h')
  | cons qs pss =>
    rw [Piece.separated]
    · exact h.append (h'.space.cons (covers_symbol .comma))
    · simp

/-- Pieces in brackets. -/
theorem Covers.brackets (h : Covers ks ps) (o c : Symbol) :
    Covers (.symbol o :: (ks ++ [.symbol c])) (.symbol o :: (ps ++ [.symbol c])) :=
  (h.append (covers_symbol c)).cons (covers_symbol o)

/-- The arguments of a call are covered between its parentheses. -/
theorem Covers.call {name : String} (h : Covers ks (separated pss)) (hname : IsName name) :
    Covers (.ident name :: .symbol .leftParen :: (ks ++ [.symbol .rightParen]))
      (Piece.call name pss) :=
  (h.brackets .leftParen .rightParen).cons (covers_name hname)

/-- A member is covered by what covers its operand, with a dot and the name behind it. -/
theorem Covers.member {name : String} (h : Covers ks ps) (hname : IsName name) :
    Covers (ks ++ [.symbol .dot, .ident name]) (ps ++ [.symbol .dot, .name name]) :=
  h.append ((covers_name hname).cons (covers_symbol .dot))

/-- What tokens of a phrase cover: an expression of a level as the operand of a place that demands
that level. -/
def CoversPhrase (ks : List Kind) : Phrase → Prop
  | .expr level e => Covers ks (group e.binding (min level Binding.member) e.pieces)
  | .items es => Covers ks (separated (Expr.piecesOf es))
  | .entries es => Covers ks (separated (Expr.piecesOfEntries es))

/-- A whole expression. -/
theorem CoversPhrase.whole (h : CoversPhrase ks (.expr Binding.conditional e)) :
    Covers ks e.pieces := by
  have hle : min Binding.conditional Binding.member ≤ e.binding := e.conditional_le_binding
  rwa [CoversPhrase, group_of_le hle] at h

/-- A construct that binds as tightly as its place demands. -/
theorem Covers.expr (h : Covers ks e.pieces) (hle : min level Binding.member ≤ e.binding) :
    CoversPhrase ks (.expr level e) := by
  rw [CoversPhrase, group_of_le hle]
  exact h

/-- The token of a binary operator covers its piece. -/
theorem covers_ofBinary {k : Kind} {op : BinaryOp} (h : Infix level k op) :
    Covers [k] [Piece.ofBinary op] := by
  cases h with
  | member => exact ⟨List.forall_mem_singleton.2 trivial, Nat.le_refl _, fun _ _ => rfl⟩
  | _ => exact covers_symbol _

/-- A call without a target, or the test of a field that it stands for. -/
theorem coversPhrase_globalCall {name : String} {args : List (Expr Unit)} (hname : IsName name)
    (h : CoversPhrase ks (.items args)) (he : globalCall? m name args = some e) :
    CoversPhrase (.ident name :: .symbol .leftParen :: (ks ++ [.symbol .rightParen]))
      (.expr primary e) := by
  unfold globalCall? at he
  split at he
  · next field hmacro =>
    -- The test is written as the call that it was.
    obtain ⟨-, rfl⟩ : m = true ∧ name = "has" := by simpa using hmacro
    rw [Option.some.injEq] at he
    subst he
    refine Covers.expr ?_ (Nat.min_le_right _ _)
    simp only [CoversPhrase, Expr.piecesOf, Expr.pieces] at h ⊢
    exact h.call hname
  · cases he
  · rw [Option.some.injEq] at he
    subst he
    refine Covers.expr ?_ ?_
    · rw [Expr.pieces_call hname]
      exact h.call hname
    · rw [(Expr.text_call hname _).2]
      exact Nat.min_le_right _ _

/-- A call on a target, or the loop that it stands for. -/
theorem coversPhrase_receiverCall {name : String} {target : Expr Unit} {args : List (Expr Unit)}
    (htarget : CoversPhrase ks (.expr Binding.member target)) (hname : IsName name)
    (hargs : CoversPhrase ks' (.items args)) (he : receiverCall? m target name args = some e) :
    CoversPhrase (ks ++ .symbol .dot :: .ident name :: .symbol .leftParen
        :: (ks' ++ [.symbol .rightParen])) (.expr Binding.member e) := by
  have hcall := htarget.append ((hargs.call hname).cons (covers_symbol .dot))
  unfold receiverCall? at he
  split at he
  · rename_i loop mark var body hloop
    -- The loop is written as the call that it was.
    have hloopName : loop.name = name := by
      have hfind := List.find?_some hloop
      simpa using hfind
    rw [Option.some.injEq] at he
    subst he hloopName
    refine Covers.expr ?_ (Nat.min_le_right _ _)
    rw [Expr.pieces]
    exact hcall
  · cases he
  · rw [Option.some.injEq] at he
    subst he
    refine Covers.expr ?_ (Nat.min_le_right _ _)
    rw [Expr.pieces]
    exact hcall

/-- Tokens of a text that derive an expression cover its pieces. -/
theorem coversPhrase_of_derives {p : Phrase} (h : Derives m p ks)
    (hks : ∀ k ∈ ks, k.IsReadable) : CoversPhrase ks p := by
  induction h with
  | tighter _ _ ih =>
    -- A place that demands less asks for no parentheses that a stricter one would not.
    exact (ih hks).loosen (by omega)
  | @conditional c ks₁ t ks₂ e ks₃ _ _ _ ihc iht ihe =>
    simp only [List.forall_mem_append, List.forall_mem_cons] at hks
    have hlast := ((ihe hks.2.2.2.2).whole.space.cons (covers_symbol .colon)).space
    have hbranches := ((iht hks.2.2.1).append hlast).space.cons (covers_symbol .question)
    refine Covers.expr ?_ (by exact Expr.conditional_le_binding _)
    rw [Expr.pieces_conditional]
    exact (ihc hks.1).append hbranches.space
  | @binary level k op l ks₁ r ks₂ hi _ _ ihl ihr =>
    simp only [List.forall_mem_append, List.forall_mem_cons] at hks
    obtain ⟨-, rfl⟩ := infix_iff.1 hi
    have hle := hi.le_multiplicative
    have hleft := ihl hks.1
    have hright := ihr hks.2.2
    rw [CoversPhrase, Nat.min_eq_left (Nat.le_trans hle (by decide))] at hleft
    rw [CoversPhrase, Nat.min_eq_left (Nat.le_trans (Nat.succ_le_succ hle) (by decide))] at hright
    refine Covers.expr ?_ (by rw [Expr.binding_binary]; exact Nat.min_le_left _ _)
    rw [Expr.pieces_binary]
    exact hleft.append (hright.space.cons (covers_ofBinary hi)).space
  | not _ ih =>
    have hoperand := ih fun k hk => hks k (List.mem_cons_of_mem _ hk)
    refine Covers.expr ?_ (by exact Nat.le_refl Binding.unary)
    exact hoperand.cons (covers_symbol .not)
  | negate _ ih =>
    have hoperand := ih fun k hk => hks k (List.mem_cons_of_mem _ hk)
    exact Covers.negation hoperand
  | select _ ih =>
    simp only [List.forall_mem_append, List.forall_mem_cons] at hks
    refine Covers.expr ?_ (Nat.min_le_right _ _)
    rw [Expr.pieces]
    exact (ih hks.1).member hks.2.2.1
  | index _ _ ihe ihi =>
    simp only [List.forall_mem_append, List.forall_mem_cons] at hks
    refine Covers.expr ?_ (Nat.min_le_right _ _)
    rw [Expr.pieces_index]
    exact (ihe hks.1).append ((ihi hks.2.2.1).whole.brackets .leftBracket .rightBracket)
  | invoke _ _ he iht iha =>
    simp only [List.forall_mem_append, List.forall_mem_cons] at hks
    exact coversPhrase_receiverCall (iht hks.1) hks.2.2.1 (iha hks.2.2.2.2.1) he
  | literal => exact covers_literal (hks _ List.mem_cons_self) _ (Nat.min_le_right _ _)
  | ident => exact Covers.expr (covers_name (hks _ List.mem_cons_self)) (Nat.min_le_right _ _)
  | call _ he ih =>
    simp only [List.forall_mem_append, List.forall_mem_cons] at hks
    exact coversPhrase_globalCall hks.1 (ih hks.2.2.1) he
  | parens _ ih =>
    simp only [List.forall_mem_append, List.forall_mem_cons] at hks
    -- Nothing else brings an expression to a level that it does not bind at by itself.
    exact (ih hks.2.1).whole.parenthesized _ _
  | list _ ih =>
    simp only [List.forall_mem_append, List.forall_mem_cons] at hks
    refine Covers.expr ?_ (Nat.min_le_right _ _)
    rw [Expr.pieces]
    exact (ih hks.2.1).brackets .leftBracket .rightBracket
  | map _ ih =>
    simp only [List.forall_mem_append, List.forall_mem_cons] at hks
    refine Covers.expr ?_ (Nat.min_le_right _ _)
    rw [Expr.pieces]
    exact (ih hks.2.1).brackets .leftBrace .rightBrace
  | noItems | noEntries => exact covers_nil
  | lastItem _ ih => exact (ih hks).whole
  | moreItems _ _ ih ihs =>
    simp only [List.forall_mem_append, List.forall_mem_cons] at hks
    exact covers_separated (ih hks.1).whole (ihs hks.2.2)
  | lastEntry _ _ ihk ihv =>
    simp only [List.forall_mem_append, List.forall_mem_cons] at hks
    exact (ihk hks.1).whole.append ((ihv hks.2.2).whole.space.cons (covers_symbol .colon))
  | @moreEntries k ks₁ v ks₂ es ks₃ _ _ _ ihk ihv ihs =>
    simp only [List.forall_mem_append, List.forall_mem_cons] at hks
    have hvalue := (ihv hks.2.2.1).whole.space.cons (covers_symbol .colon)
    have hall := covers_separated ((ihk hks.1).whole.append hvalue) (ihs hks.2.2.2.2)
    rw [List.append_assoc] at hall
    exact hall

/-! ## Texts without a pair -/

variable {before inner after : List Piece}

/-- The tokens that a tree is parsed from cover its pieces. -/
theorem covers_of_lexes {text : String} {t : Tree} (hlexes : Scan.Lexes text.toList ks)
    (h : Expr.parse text m = .ok t) : Covers ks t.bare.pieces := by
  obtain ⟨tokens, hlist, hkinds⟩ := hlexes.exists_listFrom .start
  unfold Expr.parse at h
  rw [Token.list, hlist] at h
  have heof : Kind.eof ∉ ks := fun hmem => hlexes.isReadable _ hmem
  have hderives := Expr.derives_of_ofTokens hkinds heof h
  exact (coversPhrase_of_derives hderives hlexes.isReadable).whole

/-- Text that is parsed has tokens. -/
theorem exists_lexes_of_parse {source : String} {t : Tree} (h : Expr.parse source m = .ok t) :
    ∃ ks, Scan.Lexes source.toList ks := by
  unfold Expr.parse at h
  cases htokens : Token.list source with
  | error e => rw [htokens] at h; cases h
  | ok tokens =>
    obtain ⟨ks, -, hlexes⟩ := Scan.lexes_of_listFrom htokens
    exact ⟨ks, hlexes⟩

/-- Two pieces fewer, of which one is an opening parenthesis of an operand, are fewer
parentheses. -/
theorem parens_erase_lt :
    parens (kindsOf (before ++ (inner ++ after))) <
      parens (kindsOf (before ++ .opening :: (inner ++ .closing :: after))) := by
  simp only [kindsOf, List.flatMap_append, List.flatMap_cons, parens_append]
  have hopening : parens Piece.opening.kinds = 1 := rfl
  omega

/-- Parentheses around an operand are no matter of the signs of the doubles. -/
theorem signs_erase (n : Bool) (rest : List Kind) :
    signs n (kindsOf (before ++ (inner ++ after)) ++ rest) =
      signs n (kindsOf (before ++ .opening :: (inner ++ .closing :: after)) ++ rest) := by
  simp only [kindsOf, List.flatMap_append, List.flatMap_cons, Piece.kinds, List.append_assoc,
    List.cons_append, List.nil_append]
  exact signs_congr (fun n => (signs_parenthesized _ _ n).symm) _ n

end Grammar

namespace Expr

open Grammar Piece Scan

/-- Parentheses stand only where they are needed. A tree that is parsed from a text, with macros or
without, is printed as its pieces; without any one pair of the parentheses that the printer puts
around operands, the text is not parsed, or it is parsed as another tree. -/
theorem parse_without_parentheses (source : String) (m : Bool) (t : Tree)
    (h : parse source m = .ok t) (before inner after : List Piece)
    (hpieces : t.bare.pieces = before ++ .opening :: (inner ++ .closing :: after)) :
    t.text = textOf (before ++ .opening :: (inner ++ .closing :: after)) ∧
      ∀ t', parse (textOf (before ++ (inner ++ after))) m = .ok t' → t'.same t = false := by
  have htext : t.bare.text = t.text := text_remark _ t
  refine ⟨by rw [← hpieces, textOf_pieces, htext], fun t' ht' =>
    Bool.eq_false_iff.2 fun hsame => ?_⟩
  obtain ⟨ks, hlexes⟩ := exists_lexes_of_parse h
  have hcovers := covers_of_lexes hlexes h
  -- What is left of the text is read as the tokens that are left.
  have hchain := t.bare.isChain_pieces
  rw [hpieces] at hcovers hchain
  have hopened := isChain_erase (fun _ _ => Precedes.trans_opening) hchain
  rw [← List.append_assoc] at hopened
  have hclosed := isChain_erase (fun _ _ => Precedes.trans_closing) hopened
  rw [List.append_assoc] at hclosed
  have hreadable : ∀ p ∈ before ++ (inner ++ after), p.IsReadable := fun p hp =>
    hcovers.readable p (by simp only [List.mem_append, List.mem_cons] at hp ⊢; tauto)
  have hcovers' := covers_of_lexes (lexes_of_isChain hclosed hreadable) ht'
  -- The signs are those of the whole text, so the tree would be the same in every sign.
  have hbare : t'.bare = t.bare := by
    have hsame' : t'.bare.same t.bare = true := by
      have hremark := same_remark (fun _ => ()) (fun _ => ()) t' t
      rwa [← hremark] at hsame
    have hsigns : signs false (kindsOf t'.bare.pieces ++ []) =
        signs false (kindsOf t.bare.pieces ++ []) := by
      rw [← hcovers'.signs, signs_erase, hpieces]
    exact (tells_of_same _ _ hsame' false [] [] hsigns).1
  have hle := hcovers'.parens
  rw [hbare, hpieces] at hle
  exact absurd parens_erase_lt (Nat.not_lt.2 hle)

/-- A difference that is subtracted, with a negative constant before a point in it: without its
parentheses the text is grouped to the left. -/
theorem parse_without_parentheses_difference :
    ∃ t t', parse "a-((b-(-3).y))" true = .ok t ∧ t.text = "a - (b - (-3).y)" ∧
      parse "a - b - (-3).y" true = .ok t' ∧ t'.same t = false := by
  have hpieces : (parse "a-((b-(-3).y))" true).toOption.map (fun t => t.bare.pieces) =
      some ([.name "a", .space, .symbol .minus, .space] ++ .opening ::
        ([.name "b", .space, .symbol .minus, .space, .opening, .constant (.int (-3)), .closing,
          .symbol .dot, .name "y"] ++ .closing :: [])) := by decide +kernel
  have hshort : (parse "a - b - (-3).y" true).toOption.isSome = true := by decide +kernel
  cases h : parse "a-((b-(-3).y))" true with
  | error e => rw [h] at hpieces; cases hpieces
  | ok t =>
    cases h' : parse "a - b - (-3).y" true with
    | error e => rw [h'] at hshort; cases hshort
    | ok t' =>
      rw [h] at hpieces
      -- The pair of parentheses is the one around the difference on the right.
      obtain ⟨htext, hother⟩ :=
        parse_without_parentheses _ true t h _ _ _ (Option.some.inj hpieces)
      exact ⟨t, t', rfl, htext.trans (by decide +kernel), rfl,
        hother t' ((congrArg (parse · true) (by decide +kernel)).trans h')⟩

end Expr

end CelShell
