import CelShell.Proofs.Grammar.Pieces

/-!
# The signs of the constants of a text

Trees that are the same by `Expr.same` may differ in the signs of their zeros: the two zeros are the
same constant. The tokens of their texts tell them apart. Where the doubles of both texts come out
with the same signs, the trees are equal (`Expr.tells_of_same`).

A minus sign negates the double right behind it, through any parentheses. So the signs are read off
the tokens from left to right, with a flag that says whether the next double is negated.
-/

namespace CelShell

/-- Doubles that are equal as numbers and have the same sign are equal. -/
theorem Double.eq_of_equals {x y : Double} (h : x.equals y = true)
    (hsign : x.negative = y.negative) : x = y := by
  have hrank : x.rank = y.rank := by
    unfold Double.equals Double.compare? at h
    split at h
    · cases h
    · rw [beq_iff_eq, Option.some.injEq] at h
      exact compare_eq_iff_eq.1 h
  obtain ⟨negative, code, hcode⟩ := x
  obtain ⟨negative', code', hcode'⟩ := y
  obtain rfl : negative = negative' := hsign
  -- With one sign the rank tells the code; only the two zeros share a rank.
  have heq : code = code' := by
    unfold Double.rank at hrank
    dsimp only at hrank
    split at hrank <;> omega
  subst heq
  rfl

namespace Grammar

open Piece (group separated kindsOf kindsOf_append kindsOf_parenthesized
  kindsOf_constant)

variable {ks ks' : List Kind} {ps ps' qs qs' : List Piece} {P Q : Prop} {n n' : Bool}

/-! ## The signs of tokens -/

/-- What a token adds to the signs of the doubles. -/
def signOf (negated : Bool) : Kind → List Bool
  | .literal (.double d) => [negated != d.negative]
  | _ => []

/-- Whether a double behind a token is negated by the minus signs before it. Parentheses and commas
change nothing. -/
def negatedAfter (negated : Bool) : Kind → Bool
  | .symbol .minus => !negated
  | .symbol .leftParen | .symbol .rightParen | .symbol .comma => negated
  | _ => false

/-- The signs of the doubles in some tokens, with the minus signs right before them. -/
def signs (negated : Bool) : List Kind → List Bool
  | [] => []
  | k :: ks => signOf negated k ++ signs (negatedAfter negated k) ks

/-- Tokens that give the same signs however they begin do so behind any others. -/
theorem signs_congr (h : ∀ n, signs n ks = signs n ks') (before : List Kind) (n : Bool) :
    signs n (before ++ ks) = signs n (before ++ ks') := by
  induction before generalizing n with
  | nil => exact h n
  | cons k before ih => rw [List.cons_append, List.cons_append, signs, signs, ih]

/-- A pair of parentheses changes no signs. -/
theorem signs_parenthesized (ks rest : List Kind) (n : Bool) :
    signs n (.symbol .leftParen :: (ks ++ .symbol .rightParen :: rest)) = signs n (ks ++ rest) := by
  have hclosing : ∀ n, signs n (.symbol .rightParen :: rest) = signs n rest := fun _ => rfl
  exact signs_congr hclosing ks n

/-- The parentheses of an operand change no signs. -/
theorem signs_group (binding demanded : Nat) (ps : List Piece) (n : Bool) (rest : List Kind) :
    signs n (kindsOf (group binding demanded ps) ++ rest) = signs n (kindsOf ps ++ rest) := by
  unfold group
  split
  · rw [kindsOf_parenthesized, List.cons_append, List.append_assoc]
    exact signs_parenthesized _ rest n
  · rfl

/-- The sign of a double is that of the token and of the minus sign before it. -/
theorem signs_constant (v : Literal) (n : Bool) (rest : List Kind) :
    signs n (v.kinds ++ rest) = signOf n (.literal v) ++ signs false rest := by
  unfold Literal.kinds
  split
  · cases v with
    | double d => simp [signs, negatedAfter, signOf, Literal.opposite, Double.neg]
    | _ => rfl
  · rfl

/-! ## What the signs tell -/

/-- Equal signs tell `P` of two runs of pieces, whatever comes behind them, and leave equal signs to
what does. -/
def Tells (P : Prop) (negated : Bool) (ps ps' : List Piece) : Prop :=
  ∀ rest rest', signs negated (kindsOf ps ++ rest) = signs negated (kindsOf ps' ++ rest') →
    P ∧ signs false rest = signs false rest'

/-- No pieces tell nothing and leave the signs as they are. -/
theorem tells_nil : Tells True false [] [] := fun _ _ h => ⟨trivial, h⟩

/-- What is told may be weaker. -/
theorem Tells.imp (h : Tells P n ps ps') (himp : P → Q) : Tells Q n ps ps' :=
  fun rest rest' hsigns => (h rest rest' hsigns).imp_left himp

/-- A piece that both runs start with and that is no double. -/
theorem Tells.cons (p : Piece) (hp : ∀ ks, signs n (p.kinds ++ ks) = signs n' ks)
    (h : Tells P n' ps ps') : Tells P n (p :: ps) (p :: ps') := by
  intro rest rest' hsigns
  have hcons : ∀ ps rest, signs n (kindsOf (p :: ps) ++ rest) = signs n' (kindsOf ps ++ rest) :=
    fun ps rest => by rw [kindsOf, List.flatMap_cons, List.append_assoc, hp]; rfl
  rw [hcons, hcons] at hsigns
  exact h rest rest' hsigns

/-- Runs of pieces after each other tell what each of them does. -/
theorem Tells.append (h : Tells P n ps ps') (h' : Tells Q false qs qs') :
    Tells (P ∧ Q) n (ps ++ qs) (ps' ++ qs') := by
  intro rest rest' hsigns
  rw [kindsOf_append, kindsOf_append, List.append_assoc, List.append_assoc] at hsigns
  obtain ⟨hp, hafter⟩ := h _ _ hsigns
  obtain ⟨hq, hrest⟩ := h' _ _ hafter
  exact ⟨⟨hp, hq⟩, hrest⟩

/-- Pieces that both runs end with. -/
theorem Tells.close (h : Tells P n ps ps') (h' : Tells True false qs qs') :
    Tells P n (ps ++ qs) (ps' ++ qs') := (h.append h').imp And.left

/-- A piece between spaces. -/
theorem Tells.spaced (h : Tells P n ps ps') (p : Piece)
    (hp : ∀ ks, signs false (p.kinds ++ ks) = signs n ks) :
    Tells P false (.space :: p :: .space :: ps) (.space :: p :: .space :: ps') :=
  ((h.cons .space fun _ => rfl).cons p hp).cons .space fun _ => rfl

/-- Brackets around both runs. -/
theorem Tells.brackets (h : Tells P false ps ps') (o c : Symbol)
    (ho : ∀ ks, signs n (.symbol o :: ks) = signs false ks)
    (hc : ∀ ks, signs false (.symbol c :: ks) = signs false ks) :
    Tells P n (.symbol o :: (ps ++ [.symbol c])) (.symbol o :: (ps' ++ [.symbol c])) :=
  (h.close (tells_nil.cons (.symbol c) hc)).cons (.symbol o) ho

/-- Constants that are the same are told apart by their signs alone, since only the two zeros are
the same without being equal. -/
theorem tells_constant {v v' : Literal} (h : v.same v' = true) (n : Bool) :
    Tells (v = v') n [.constant v] [.constant v'] := by
  intro rest rest' hsigns
  rw [kindsOf_constant, kindsOf_constant, signs_constant, signs_constant] at hsigns
  cases v with
  -- Constants that are the same are equal, unless they are doubles.
  | double d =>
    cases v' with
    | double d' =>
      obtain ⟨hsign, hrest⟩ := List.cons.inj hsigns
      exact ⟨congrArg Literal.double (Double.eq_of_equals h (Bool.xor_right_inj.1 hsign)), hrest⟩
    | _ => cases h
  | _ =>
    obtain rfl := beq_iff_eq.1 h
    exact ⟨rfl, hsigns⟩

/-! ## Lists -/

variable {β : Type} {f : β → List Piece} {bs bs' : List β}

/-- Items that tell themselves tell their list. -/
theorem tells_separated (h : List.Forall₂ (fun b b' => Tells (b = b') false (f b) (f b')) bs bs') :
    Tells (bs = bs') false (separated (bs.map f)) (separated (bs'.map f)) := by
  induction h with
  | nil => exact tells_nil.imp fun _ => rfl
  | @cons b b' bs bs' hb hbs ih =>
    cases hbs with
    | nil => exact hb.imp fun heq => by rw [heq]
    | cons hb' hbs =>
      have hrest := (ih.cons .space fun _ => rfl).cons (.symbol .comma) fun _ => rfl
      have hall := (hb.append hrest).imp fun ⟨heq, heqs⟩ => congrArg₂ List.cons heq heqs
      simpa [separated] using hall

end Grammar

namespace Expr

open Grammar
open Piece (group separated ofBinary ofUnary)

variable {args args' : List (Expr Unit)}

/-- Expressions of which equal signs tell that they are equal. -/
def TellsItself (e e' : Expr Unit) : Prop := ∀ n, Tells (e = e') n e.pieces e'.pieces

/-- The parentheses of an operand tell nothing. -/
theorem TellsItself.operand {e e' : Expr Unit} (h : TellsItself e e') (n : Bool) (demanded : Nat) :
    Tells (e = e') n (group e.binding demanded e.pieces) (group e'.binding demanded e'.pieces) := by
  intro rest rest' hsigns
  rw [signs_group, signs_group] at hsigns
  exact h n rest rest' hsigns

/-- Arguments that tell themselves tell their list. -/
theorem tells_piecesOf (h : List.Forall₂ TellsItself args args') :
    Tells (args = args') false (separated (piecesOf args)) (separated (piecesOf args')) := by
  rw [piecesOf_eq, piecesOf_eq]
  exact tells_separated (h.imp fun _ _ htells => htells false)

/-- The arguments of a call in brackets tell their list. -/
theorem tells_piecesOfCall (h : List.Forall₂ TellsItself args args') (function : String)
    (n : Bool) :
    Tells (args = args') n (Piece.call function (piecesOf args))
      (Piece.call function (piecesOf args')) :=
  ((tells_piecesOf h).brackets .leftParen .rightParen (fun _ => rfl) fun _ => rfl).cons
    (.name function) fun _ => rfl

/-- Whether the operand behind an operator is negated is a matter of the operator alone. -/
theorem exists_signs_ofUnary (op : UnaryOp) (n : Bool) :
    ∃ n', ∀ ks, signs n ((ofUnary op).kinds ++ ks) = signs n' ks := by
  cases op <;> exact ⟨_, fun _ => rfl⟩

/-- The operator between two operands decides whether the right one is negated. -/
theorem exists_signs_ofBinary (op : BinaryOp) :
    ∃ n', ∀ ks, signs false ((ofBinary op).kinds ++ ks) = signs n' ks := by
  cases op <;> exact ⟨_, fun _ => rfl⟩

/-- A call is told by its arguments, whether it is written as an operator or not. -/
theorem tells_call (function : String) (h : List.Forall₂ TellsItself args args') (n : Bool) :
    Tells (args = args') n (call () function args).pieces (call () function args').pieces := by
  have hcall := tells_piecesOfCall h function n
  -- The operators have one, two or three operands, so the case is told by the number of arguments.
  cases h with
  | nil => exact hcall
  | @cons a a' _ _ ha h =>
    cases h with
    | nil =>
      rw [pieces, pieces]
      cases UnaryOp.ofFunction? function with
      | some op =>
        obtain ⟨n', hn'⟩ := exists_signs_ofUnary op n
        exact ((ha.operand n' _).cons _ hn').imp fun heq => by rw [heq]
      | none => exact hcall
    | @cons b b' _ _ hb h =>
      cases h with
      | nil =>
        rw [pieces, pieces]
        cases BinaryOp.ofFunction? function with
        | some op =>
          obtain ⟨n', hn'⟩ := exists_signs_ofBinary op
          exact ((ha.operand n _).append ((hb.operand n' _).spaced _ hn')).imp
            fun ⟨heq, heq'⟩ => by rw [heq, heq']
        | none =>
          dsimp only
          split
          · have hindex := (hb false).brackets (n := false) .leftBracket .rightBracket
              (fun _ => rfl) fun _ => rfl
            exact ((ha.operand n _).append hindex).imp fun ⟨heq, heq'⟩ => by rw [heq, heq']
          · exact hcall
      | @cons c c' _ _ hc h =>
        cases h with
        | nil =>
          rw [pieces, pieces]
          split
          · have hlast := (hc false).spaced (.symbol .colon) fun _ => rfl
            have hbranches := (hb.operand false Binding.or).append hlast
            exact ((ha.operand n _).append (hbranches.spaced (.symbol .question) fun _ => rfl)).imp
              fun ⟨heq, heq', heq''⟩ => by rw [heq, heq', heq'']
          · exact hcall
        | cons hd h =>
          rw [pieces, pieces]
          · exact hcall
          all_goals simp

/-- A selection, or the test of a field. -/
theorem tells_select {e e' : Expr Unit} (h : TellsItself e e') (field : String)
    (testOnly : Bool) :
    TellsItself (.select () e field testOnly) (.select () e' field testOnly) := by
  -- The field behind the operand tells nothing, since it holds no double.
  have hselected : ∀ n, Tells (e = e') n
      (group e.binding Binding.member e.pieces ++ [.symbol .dot, .name field])
      (group e'.binding Binding.member e'.pieces ++ [.symbol .dot, .name field]) := fun n =>
    (h.operand n _).close ((tells_nil.cons (.name field) fun _ => rfl).cons (.symbol .dot)
      fun _ => rfl)
  intro n
  rw [pieces, pieces]
  cases testOnly with
  | false => exact (hselected n).imp fun heq => by rw [heq]
  | true =>
    have hcall := (hselected false).brackets (n := false) .leftParen .rightParen
      (fun _ => rfl) fun _ => rfl
    exact (hcall.cons (.name "has") fun _ => rfl).imp fun heq => by rw [heq]

mutual

/-- Trees that are the same are equal if their doubles come out with the same signs. -/
theorem tells_of_same : (e e' : Expr Unit) → e.same e' = true → TellsItself e e'
  | ident _ a, e', h => by
    cases e' with
    | ident _ b =>
      obtain rfl := beq_iff_eq.1 h
      exact fun n => (tells_nil.cons (.name a) fun _ => rfl).imp fun _ => rfl
    | _ => cases h
  | literal _ v, e', h => by
    cases e' with
    | literal _ v' => exact fun n => (tells_constant h n).imp fun heq => by rw [heq]
    | _ => cases h
  | select _ e f t, e', h => by
    cases e' with
    | select _ e' f' t' =>
      rw [same, Bool.and_eq_true, Bool.and_eq_true, beq_iff_eq, beq_iff_eq] at h
      obtain ⟨⟨hsame, rfl⟩, rfl⟩ := h
      exact tells_select (tells_of_same e e' hsame) f t
    | _ => cases h
  -- Calls of one name are told by their arguments.
  | call _ f args, e', h => by
    cases e' with
    | call _ f' args' =>
      rw [same, Bool.and_eq_true, beq_iff_eq] at h
      obtain ⟨rfl, hargs⟩ := h
      exact fun n => (tells_call f (forall₂_of_sameList args args' hargs) n).imp
        fun heq => by rw [heq]
    | _ => cases h
  | invoke _ e f args, e', h => by
    cases e' with
    | invoke _ e' f' args' =>
      rw [same, Bool.and_eq_true, Bool.and_eq_true, beq_iff_eq] at h
      obtain ⟨⟨hsame, rfl⟩, hargs⟩ := h
      intro n
      have hcall := tells_piecesOfCall (forall₂_of_sameList args args' hargs) f false
      rw [pieces, pieces]
      exact (((tells_of_same e e' hsame).operand n _).append
        (hcall.cons (.symbol .dot) fun _ => rfl)).imp fun ⟨heq, heqs⟩ => by rw [heq, heqs]
    | _ => cases h
  | list _ es, e', h => by
    cases e' with
    | list _ es' =>
      intro n
      have hitems := tells_piecesOf (forall₂_of_sameList es es' h)
      rw [pieces, pieces]
      exact (hitems.brackets .leftBracket .rightBracket (fun _ => rfl) fun _ => rfl).imp
        fun heq => by rw [heq]
    | _ => cases h
  | map _ es, e', h => by
    cases e' with
    | map _ es' =>
      intro n
      have hentries := tells_separated (forall₂_of_sameEntries es es' h)
      rw [pieces, pieces, piecesOfEntries_eq, piecesOfEntries_eq]
      exact (hentries.brackets .leftBrace .rightBrace (fun _ => rfl) fun _ => rfl).imp
        fun heq => by rw [heq]
    | _ => cases h
  | comprehension _ loop var range body, e', h => by
    cases e' with
    | comprehension _ loop' var' range' body' =>
      rw [same, Bool.and_eq_true, Bool.and_eq_true, Bool.and_eq_true, beq_iff_eq, beq_iff_eq] at h
      obtain ⟨⟨⟨rfl, rfl⟩, hrange⟩, hbody⟩ := h
      intro n
      -- The variable is written as a name, which holds no double.
      have hvar : TellsItself (.ident () var) (.ident () var) := fun n =>
        (tells_nil.cons (.name var) fun _ => rfl).imp fun _ => rfl
      have hcall := tells_piecesOfCall (.cons hvar (.cons (tells_of_same body body' hbody) .nil))
        loop.name false
      rw [pieces, pieces]
      exact (((tells_of_same range range' hrange).operand n _).append
        (hcall.cons (.symbol .dot) fun _ => rfl)).imp fun ⟨heq, heqs⟩ => by simp_all
    | _ => cases h

/-- Lists that are the same consist of elements that are told by their signs. -/
theorem forall₂_of_sameList : (es es' : List (Expr Unit)) → sameList es es' = true →
    List.Forall₂ TellsItself es es'
  | [], es', h => by
    cases es' with
    | nil => exact .nil
    | cons => cases h
  | e :: rest, es', h => by
    cases es' with
    | nil => cases h
    | cons e' rest' =>
      rw [sameList, Bool.and_eq_true] at h
      exact .cons (tells_of_same e e' h.1) (forall₂_of_sameList rest rest' h.2)

/-- Entries that are the same consist of keys and values that are told by their signs. -/
theorem forall₂_of_sameEntries : (es es' : List (Expr Unit × Expr Unit)) →
    sameEntries es es' = true →
    List.Forall₂ (fun e e' => Tells (e = e') false (piecesOfEntry e) (piecesOfEntry e')) es es'
  | [], es', h => by
    cases es' with
    | nil => exact .nil
    | cons => cases h
  | (k, v) :: rest, es', h => by
    cases es' with
    | nil => cases h
    | cons e' rest' =>
      obtain ⟨k', v'⟩ := e'
      rw [sameEntries, Bool.and_eq_true, Bool.and_eq_true] at h
      obtain ⟨⟨hkey, hvalue⟩, hrest⟩ := h
      have hbehind := ((tells_of_same v v' hvalue false).cons (n := false) .space
        fun _ => rfl).cons (n := false) (.symbol .colon) fun _ => rfl
      exact .cons (((tells_of_same k k' hkey false).append hbehind).imp
        fun ⟨heq, heq'⟩ => by rw [heq, heq']) (forall₂_of_sameEntries rest rest' hrest)

end

end Expr

end CelShell
