import CelShell.Proofs.Expr.Nesting
import CelShell.Proofs.Grammar.Recognition
import CelShell.Proofs.Token.Spelling

/-!
# What is printed is parsed

The text of an expression that was parsed is read as tokens that derive the same expression. The
induction is on the derivation of the expression: the text of a construct is put together from the
texts of its parts, each in parentheses if it binds looser than its place demands, and so are the
tokens that derive it. Names and constants come from tokens, which is why each of them has a text
that is read back. With the tokens the induction counts the levels that they take, which are those
of `Expr.levels`.

The tokens of the text need not be those that the expression was parsed from, so parsing the text
may need more levels of nesting, and the limit may stop it. It is stopped by nothing else.
-/

namespace CelShell

open Scan

namespace Grammar

variable {m : Bool} {level : Nat} {e e₁ e₂ e₃ : Expr Unit} {s s₁ s₂ s₃ name : String}
  {ks : List Kind} {n n₁ n₂ n₃ : Nesting}

/-! ## Printed expressions -/

/-- A text is read as tokens of an expression of a level, and as many levels as they take. -/
def Printed (m : Bool) (level : Nat) (e : Expr Unit) (s : String) (n : Nesting) : Prop :=
  ∃ ks, Takes m (.expr level e) ks n ∧ Spells s.toList ks

/-- The level of an expression is never looser than that of a whole one. -/
theorem Derives.conditional_le (h : Derives m (.expr level e) ks) :
    Binding.conditional ≤ level := by
  cases h with
  | tighter hle => exact hle
  | binary hi => exact Nat.le_trans (by decide) hi.or_le
  | _ => decide

/-- A text between an opening and a closing bracket. -/
theorem spells_brackets {text : List Char} (o c : Symbol) (a b : Char) (ho : ∀ rest, Alone o rest)
    (hc : ∀ rest, Alone c rest) (ha : o.text.toList = [a]) (hb : c.text.toList = [b])
    (hmark : b ∈ marks) (h : Spells text ks) :
    Spells ([a] ++ (text ++ [b])) (.symbol o :: (ks ++ [.symbol c])) :=
  (passes_symbol o [a] ha ho).spells (h.append hmark (passes_symbol c [b] hb hc).toSpells)

/-- A whole expression in parentheses stands alone, and its chain ends there. -/
theorem Printed.parens (h : Printed m Binding.conditional e s n) :
    Printed m primary e ("(" ++ s ++ ")") (.closed n.levels) := by
  obtain ⟨ks, hd, hs⟩ := h
  refine ⟨_, .parens hd, ?_⟩
  simp only [String.toList_append, String.reduceToList, List.append_assoc]
  exact spells_brackets .leftParen .rightParen '(' ')' (fun _ => trivial) (fun _ => trivial) rfl rfl
    (by decide) hs

/-- What stands alone is a chain of members without a link. -/
theorem Printed.toMember (h : Printed m primary e s n) : Printed m Binding.member e s n := by
  obtain ⟨ks, hd, hs⟩ := h
  exact ⟨ks, .tighter (by decide) hd, hs⟩

/-- What is of a level is of every looser level of operators. -/
theorem Printed.loosen {demanded : Nat} (h : Printed m level e s n) (hle : demanded ≤ level)
    (hor : Binding.or ≤ demanded) (hmember : level ≤ Binding.member) :
    Printed m demanded e s (n.asOperand level demanded) := by
  obtain ⟨ks, hd, hs⟩ := h
  exact ⟨ks, hd.loosen hle hor hmember, hs⟩

/-- What is of a level is a whole expression. -/
theorem Printed.whole (h : Printed m level e s n) (hmember : level ≤ Binding.member) :
    Printed m Binding.conditional e s (.closed (n.whole level)) := by
  obtain ⟨ks, hd, hs⟩ := h
  exact ⟨ks, hd.whole hd.derives.conditional_le hmember, hs⟩

/-- What the printer puts in the place of an operand has the level that the place demands. -/
theorem Printed.operand (h : Printed m e.binding e s n) (hor : Binding.or ≤ level)
    (hle : level ≤ Binding.member) :
    Printed m level e (Expr.parenthesize e.binding level s) (n.operand e.binding level) := by
  unfold Expr.parenthesize Nesting.operand
  split
  · -- In parentheses it stands alone, as tight as any place demands.
    have hmember := (h.whole e.binding_le).parens.toMember.loosen hle hor (Nat.le_refl _)
    rw [Nesting.closed_levels, Nesting.asOperand_closed] at hmember
    exact hmember
  · rename_i hbinding
    exact h.loosen (Nat.not_lt.1 hbinding) hor e.binding_le

/-- The text of an expression does not make another symbol of the exclamation mark before it. -/
theorem Printed.alone_not (h : Printed m level e s n) (rest : List Char) :
    Alone .not (s.toList ++ rest) := by
  obtain ⟨ks, hd, hs⟩ := h
  obtain ⟨k, ks', rfl, hk⟩ := hd.derives.head
  have hlexes : Lexes (s.toList ++ []) (k :: ks' ++ []) := hs .finish (.done rfl)
  rw [List.append_nil, List.append_nil] at hlexes
  have hne : k ≠ .symbol .equals := by
    rintro rfl
    simp [Starts] at hk
  intro t hstart
  cases hlist : s.toList with
  | nil =>
    -- A text without characters has no first token.
    rw [hlist] at hlexes
    cases hlexes with
    | token hlayout => cases hlayout
  | cons c text =>
    rw [hlist, List.cons_append, List.cons.injEq] at hstart
    exact hlexes.alone_not hne text (by rw [hlist, hstart.1])

/-! ## Each construct from its parts -/

/-- A conditional is a level around its three parts. -/
theorem Printed.conditional (h₁ : Printed m Binding.or e₁ s₁ n₁)
    (h₂ : Printed m Binding.or e₂ s₂ n₂) (h₃ : Printed m Binding.conditional e₃ s₃ n₃) :
    Printed m Binding.conditional (.call () Operator.conditional [e₁, e₂, e₃])
      (s₁ ++ " ? " ++ s₂ ++ " : " ++ s₃)
      (.closed (max n₁.levels (max n₂.levels n₃.levels) + 1)) := by
  obtain ⟨ks₁, hd₁, hs₁⟩ := h₁
  obtain ⟨ks₂, hd₂, hs₂⟩ := h₂
  obtain ⟨ks₃, hd₃, hs₃⟩ := h₃
  refine ⟨_, .conditional hd₁ hd₂ hd₃, ?_⟩
  have hcolon : Spells ([' ', ':', ' '] ++ s₃.toList) (.symbol .colon :: ks₃) :=
    (passes_spaced_symbol .colon [':'] rfl).spells hs₃
  have hquestion : Spells ([' ', '?', ' '] ++ (s₂.toList ++ ([' ', ':', ' '] ++ s₃.toList)))
      (.symbol .question :: (ks₂ ++ .symbol .colon :: ks₃)) :=
    (passes_spaced_symbol .question ['?'] rfl).spells (hs₂.append (by decide) hcolon)
  simp only [String.toList_append, String.reduceToList, List.append_assoc]
  exact hs₁.append (by decide) hquestion

/-- An operator between two spaces. -/
theorem passes_operator {k : Kind} {op : BinaryOp} (h : Infix level k op) :
    Passes (' ' :: (op.text.toList ++ [' '])) [k] := by
  cases h with
  -- The word `in` needs the space behind it to end there.
  | member =>
    intro rest ks hrest
    have hword : IsWord ['i', 'n'] := isWord_of_all (by decide) (by decide)
    exact lexes_space (lexes_word hword (Text.stops_cons.2 (by decide))
      (Text.stops_cons.2 (by decide)) (lexes_space hrest))
  | or => exact passes_spaced_symbol .or _ rfl
  | and => exact passes_spaced_symbol .and _ rfl
  | equals => exact passes_spaced_symbol .equals _ rfl
  | notEquals => exact passes_spaced_symbol .notEquals _ rfl
  | less => exact passes_spaced_symbol .less _ rfl
  | lessEquals => exact passes_spaced_symbol .lessEquals _ rfl
  | greater => exact passes_spaced_symbol .greater _ rfl
  | greaterEquals => exact passes_spaced_symbol .greaterEquals _ rfl
  | add => exact passes_spaced_symbol .plus _ rfl
  | subtract => exact passes_spaced_symbol .minus _ rfl
  | multiply => exact passes_spaced_symbol .star _ rfl
  | divide => exact passes_spaced_symbol .slash _ rfl
  | modulo => exact passes_spaced_symbol .percent _ rfl

/-- A binary operator is one more link of the chain on its left. -/
theorem Printed.binary {k : Kind} {op : BinaryOp} (hi : Infix level k op)
    (h₁ : Printed m level e₁ s₁ n₁) (h₂ : Printed m (level + 1) e₂ s₂ n₂) :
    Printed m level (.call () op.function [e₁, e₂]) (s₁ ++ " " ++ op.text ++ " " ++ s₂)
      (n₁.link n₂.levels) := by
  obtain ⟨ks₁, hd₁, hs₁⟩ := h₁
  obtain ⟨ks₂, hd₂, hs₂⟩ := h₂
  refine ⟨_, .binary hi hd₁ hd₂, ?_⟩
  have hright : Spells (' ' :: (op.text.toList ++ [' ']) ++ s₂.toList) ([k] ++ ks₂) :=
    (passes_operator hi).spells hs₂
  rw [List.cons_append, List.append_assoc] at hright
  simp only [String.toList_append, String.reduceToList, List.append_assoc]
  exact hs₁.append (by decide) hright

/-- An exclamation mark is a level around its operand. -/
theorem Printed.not (h : Printed m Binding.unary e s n) :
    Printed m Binding.unary (.call () "!_" [e]) ("!" ++ s) (.closed (n.levels + 1)) := by
  have halone := h.alone_not
  obtain ⟨ks, hd, hs⟩ := h
  refine ⟨_, .not hd, fun rest ks' hrest hlexes => ?_⟩
  simp only [String.toList_append, String.reduceToList, List.append_assoc]
  exact lexes_symbol .not (halone rest) (hs hrest hlexes)

/-- A minus sign is a level around its operand, even where it is taken into a constant. -/
theorem Printed.negate (h : Printed m Binding.unary e s n) :
    Printed m Binding.unary (negation e) ("-" ++ s) (.closed (n.levels + 1)) := by
  obtain ⟨ks, hd, hs⟩ := h
  refine ⟨_, .negate hd, ?_⟩
  simp only [String.toList_append, String.reduceToList]
  exact (passes_symbol .minus ['-'] rfl fun _ => trivial).spells hs

/-- A field is one more link of a chain of members. -/
theorem Printed.select (h : Printed m Binding.member e s n) (hname : IsName name) :
    Printed m Binding.member (.select () e name false) (s ++ "." ++ name) (n.link 0) := by
  obtain ⟨ks, hd, hs⟩ := h
  refine ⟨_, .select hd, ?_⟩
  simp only [String.toList_append, String.reduceToList, List.append_assoc]
  exact hs.member hname

/-- An index is one more link of a chain of members, and the expression in it is read below the
link. -/
theorem Printed.index (h₁ : Printed m Binding.member e₁ s₁ n₁)
    (h₂ : Printed m Binding.conditional e₂ s₂ n₂) :
    Printed m Binding.member (.call () Operator.index [e₁, e₂]) (s₁ ++ "[" ++ s₂ ++ "]")
      (n₁.link n₂.levels) := by
  obtain ⟨ks₁, hd₁, hs₁⟩ := h₁
  obtain ⟨ks₂, hd₂, hs₂⟩ := h₂
  refine ⟨_, .index hd₁ hd₂, ?_⟩
  simp only [String.toList_append, String.reduceToList, List.append_assoc]
  exact hs₁.append (by decide) (spells_brackets .leftBracket .rightBracket '[' ']'
    (fun _ => trivial) (fun _ => trivial) rfl rfl (by decide) hs₂)

/-! ## Items -/

/-- Items with a comma and a space between them, each of which has a text. -/
theorem exists_separated {α : Type} {item : α → List Kind → Prop} {view : α → String}
    {as : List α} (h : ∀ a ∈ as, ∃ ks, item a ks ∧ Spells (view a).toList ks) :
    ∃ ks, Separated item as ks ∧ Spells (", ".intercalate (as.map view)).toList ks := by
  induction as with
  | nil => exact ⟨[], .nil, passes_nil.toSpells⟩
  | cons a as ih =>
    obtain ⟨⟨ks₁, hitem, hs₁⟩, has⟩ := List.forall_mem_cons.1 h
    obtain ⟨ks₂, hitems, hs₂⟩ := ih has
    -- A comma stands behind each item but the last.
    cases as with
    | nil => exact ⟨ks₁, .last hitem, by simpa using hs₁⟩
    | cons b as =>
      refine ⟨_, .more hitem hitems, ?_⟩
      have hcomma : Passes [',', ' '] [.symbol .comma] :=
        (passes_symbol .comma [','] rfl fun _ => trivial).append passes_space
      rw [List.map_cons, List.map_cons, String.intercalate_cons_cons, ← List.map_cons]
      simp only [String.toList_append, String.reduceToList, List.append_assoc]
      exact hs₁.append (by decide) (hcomma.spells hs₂)

/-- The text of an expression, wherever any expression may stand. -/
abbrev PrintedText (m : Bool) (e : Expr Unit) : Prop :=
  Printed m Binding.conditional e e.text (.closed e.levels)

/-- Arguments that have texts of their own have one together. -/
theorem exists_items {es : List (Expr Unit)} (h : ∀ e ∈ es, PrintedText m e) :
    ∃ ks, Takes m (.items es) ks (.closed (Expr.levelsOf es)) ∧
      Spells (Expr.argsText es).toList ks := by
  obtain ⟨ks, hitems, hs⟩ := exists_separated h
  exact ⟨ks, Expr.takes_items hitems, hs⟩

/-- Entries have a text together, if their keys and values have texts of their own. -/
theorem exists_entries {es : List (Expr Unit × Expr Unit)}
    (h : ∀ e ∈ es, PrintedText m e.1 ∧ PrintedText m e.2) :
    ∃ ks, Takes m (.entries es) ks (.closed (Expr.levelsOfEntries es)) ∧
      Spells (", ".intercalate (es.map Expr.entryText)).toList ks := by
  -- Each entry is its key, a colon and its value.
  have hentry : ∀ e ∈ es, ∃ ks,
      IsEntry (fun e ks => Takes m (.expr Binding.conditional e) ks (.closed e.levels)) e ks ∧
        Spells (Expr.entryText e).toList ks := by
    intro e he
    obtain ⟨⟨ks₁, hd₁, hs₁⟩, ⟨ks₂, hd₂, hs₂⟩⟩ := h e he
    refine ⟨_, ⟨ks₁, ks₂, rfl, hd₁, hd₂⟩, ?_⟩
    have hcolon : Passes [':', ' '] [.symbol .colon] :=
      (passes_symbol .colon [':'] rfl fun _ => trivial).append passes_space
    simp only [Expr.entryText, String.toList_append, String.reduceToList, List.append_assoc]
    exact hs₁.append (by decide) (hcolon.spells hs₂)
  obtain ⟨ks, hentries, hs⟩ := exists_separated hentry
  exact ⟨ks, Expr.takes_entries hentries, hs⟩

/-- A list is written by its elements. -/
theorem Printed.list {es : List (Expr Unit)} (h : ∀ e ∈ es, PrintedText m e) :
    Printed m primary (.list () es) ("[" ++ Expr.argsText es ++ "]")
      (.closed (Expr.levelsOf es)) := by
  obtain ⟨ks, hd, hs⟩ := exists_items h
  refine ⟨_, .list hd, ?_⟩
  simp only [String.toList_append, String.reduceToList, List.append_assoc]
  exact spells_brackets .leftBracket .rightBracket '[' ']' (fun _ => trivial) (fun _ => trivial) rfl
    rfl (by decide) hs

/-- A map is written by its entries. -/
theorem Printed.map {es : List (Expr Unit × Expr Unit)}
    (h : ∀ e ∈ es, PrintedText m e.1 ∧ PrintedText m e.2) :
    Printed m primary (.map () es)
      ("\x7b" ++ ", ".intercalate (es.map Expr.entryText) ++ "\x7d")
      (.closed (Expr.levelsOfEntries es)) := by
  obtain ⟨ks, hd, hs⟩ := exists_entries h
  refine ⟨_, .map hd, ?_⟩
  simp only [String.toList_append, String.reduceToList, List.append_assoc]
  exact spells_brackets .leftBrace .rightBrace '\x7b' '\x7d' (fun _ => trivial) (fun _ => trivial)
    rfl rfl (by decide) hs

/-- Arguments in brackets after what is called. -/
theorem Spells.arguments {text : List Char} {ks' : List Kind} (h : Spells text ks')
    (hs : Spells s.toList ks) :
    Spells (text ++ ("(".toList ++ (s.toList ++ ")".toList)))
      (ks' ++ .symbol .leftParen :: (ks ++ [.symbol .rightParen])) :=
  h.append (by decide) (spells_brackets .leftParen .rightParen '(' ')' (fun _ => trivial)
    (fun _ => trivial) rfl rfl (by decide) hs)

/-- A call without a target is written by its arguments, whatever the macros make of it. -/
theorem Printed.call {args : List (Expr Unit)} (hname : IsName name)
    (hargs : ∀ e ∈ args, PrintedText m e) (he : globalCall? m name args = some e) :
    Printed m primary e (name ++ "(" ++ Expr.argsText args ++ ")")
      (.closed (Expr.levelsOf args)) := by
  obtain ⟨ks, hd, hs⟩ := exists_items hargs
  refine ⟨_, .call hd he, ?_⟩
  simp only [String.toList_append, List.append_assoc]
  exact Spells.arguments (spells_name hname) hs

/-- A call on a target is one more link of a chain of members, whatever the macros make of it. -/
theorem Printed.invoke {args : List (Expr Unit)} (h : Printed m Binding.member e₁ s₁ n)
    (hname : IsName name) (hargs : ∀ e ∈ args, PrintedText m e)
    (he : receiverCall? m e₁ name args = some e) :
    Printed m Binding.member e (s₁ ++ "." ++ name ++ "(" ++ Expr.argsText args ++ ")")
      (n.link (Expr.levelsOf args)) := by
  obtain ⟨ks₁, hd₁, hs₁⟩ := h
  obtain ⟨ks₂, hd₂, hs₂⟩ := exists_items hargs
  refine ⟨_, .invoke hd₁ hd₂ he, ?_⟩
  have hcall := Spells.arguments (hs₁.member hname) hs₂
  simp only [String.toList_append, String.reduceToList, List.append_assoc, List.cons_append,
    List.nil_append] at hcall ⊢
  exact hcall

/-! ## Constants -/

/-- An int has a sign exactly if it is below zero. -/
theorem isNegative_int (n : Int64) : (Literal.int n).isNegative = true ↔ n.toInt < 0 := by
  simp only [Literal.isNegative, decide_eq_true_eq, Int64.lt_iff_toInt_lt, Int64.toInt_zero]

/-- The text of a constant that has no sign. -/
theorem spells_literal {v : Literal} (hv : v.IsWritable) (hsign : v.isNegative = false) :
    Spells v.text.toList [.literal v] := by
  cases v with
  | null => exact spells_word (s := ['n', 'u', 'l', 'l']) (isWord_of_all (by decide) (by decide))
  | bool b =>
    cases b with
    | true => exact spells_word (s := ['t', 'r', 'u', 'e']) (isWord_of_all (by decide) (by decide))
    | false =>
      exact spells_word (s := ['f', 'a', 'l', 's', 'e']) (isWord_of_all (by decide) (by decide))
  | int n =>
    -- An int without a sign is written by its digits, which fit again.
    have hpos : 0 ≤ n.toInt := by
      rw [← Bool.not_eq_true, isNegative_int] at hsign
      exact Int.not_lt.1 hsign
    have hfits : Number.int64? (n.toInt.natAbs : Int) = some n := by
      have hlt := n.toInt_lt
      have habs : (n.toInt.natAbs : Int) = n.toInt := by omega
      rw [habs, Number.int64?, if_pos (by omega), Int64.ofInt_toInt]
    have htext : (Literal.int n).text.toList = Number.toDigits n.toInt.natAbs := by
      simp only [Literal.text, Number.int64Text, if_neg (Int.not_lt.2 hpos), String.toList_ofList]
    rw [htext]
    exact spells_int hfits
  | uint n =>
    have hfits : Number.uint64? (n.toNat : Int) = some n := by
      have hlt := n.toNat_lt
      rw [Number.uint64?, if_pos (by omega), Int.toNat_natCast, UInt64.ofNat_toNat]
    have htext : (Literal.uint n).text.toList = Number.toDigits n.toNat ++ ['u'] := by
      simp only [Literal.text, Number.uint64Text, String.toList_append, String.toList_ofList,
        String.reduceToList]
    rw [htext]
    exact spells_uint hfits
  | double d => exact spells_double hv hsign
  | string s => exact spells_quote s

/-- The least int is its own opposite, so it is that of no other. -/
theorem neg_ne_minValue {n : Int64} (hn : n ≠ Int64.minValue) : -n ≠ Int64.minValue := by
  intro hmin
  refine hn ?_
  rw [← Int64.neg_neg (a := n), hmin]
  decide

/-- The text of a constant with a sign is the sign and the text of the opposite constant. -/
theorem exists_opposite {v : Literal} (hv : v.IsWritable) (hsign : v.isNegative = true) :
    ∃ v' : Literal, v'.IsWritable ∧ v'.isNegative = false ∧ v.text = "-" ++ v'.text ∧
      negation (.literal () v') = .literal () v := by
  cases v with
  | int n =>
    -- All but the least int have an opposite, with the same digits.
    have hneg : n.toInt < 0 := (isNegative_int n).1 hsign
    have hlow : -2 ^ 63 < n.toInt := by
      have hle := n.le_toInt
      have hne : n.toInt ≠ -2 ^ 63 := by
        intro heq
        exact hv (Int64.toInt_inj.1 (by rw [heq, Int64.toInt_minValue]))
      omega
    have hopp : (-n).toInt = -n.toInt := by
      have hlt := n.toInt_lt
      have hofInt : -n = Int64.ofInt (-n.toInt) := by rw [Int64.ofInt_neg, Int64.ofInt_toInt]
      rw [hofInt]
      exact Int64.toInt_ofInt_of_le (by omega) (by omega)
    have hopp' : -n ≠ Int64.minValue := neg_ne_minValue hv
    refine ⟨.int (-n), hopp', ?_, ?_, ?_⟩
    · rw [← Bool.not_eq_true, isNegative_int, hopp]
      omega
    · have habs : (-n).toInt.natAbs = n.toInt.natAbs := by rw [hopp, Int.natAbs_neg]
      have hpos : ¬ (-n).toInt < 0 := by omega
      simp only [Literal.text, Number.int64Text, if_pos hneg, if_neg hpos, habs]
    · rw [negation, if_neg hopp', Int64.neg_neg]
  | double d =>
    have hneg : d.negative = true := hsign
    refine ⟨.double d.neg, hv, ?_, ?_, ?_⟩
    · simp [Literal.isNegative, Double.neg, hneg]
    · -- A finite double and its opposite differ in the sign of their texts only.
      have hnan : d.isNaN = false := Double.isNaN_of_isFinite hv
      have hinf : d.isInfinite = false := Double.isInfinite_of_isFinite hv
      have hnan' : d.neg.isNaN = false := hnan
      have hinf' : d.neg.isInfinite = false := hinf
      have hneg' : d.neg.negative = false := by simp [Double.neg, hneg]
      have hdigits : ∀ halfUp, d.neg.digits halfUp = d.digits halfUp := fun _ => rfl
      simp only [Literal.text, Double.text, hnan, hinf, hneg, hnan', hinf', hneg', hdigits,
        Bool.false_eq_true, if_false, if_true, String.empty_append]
    · simp [negation, Double.neg]
  | _ => cases hsign

/-- A constant that can be written is the same as itself: it is no NaN. -/
theorem same_self {v : Literal} (hv : v.IsWritable) : v.same v = true := by
  cases v with
  | double d =>
    have hnan : d.isNaN = false := Double.isNaN_of_isFinite hv
    have hcompare : compare d.rank d.rank = .eq := compare_eq_iff_eq.2 rfl
    simp only [Literal.same, Double.equals, Double.compare?, hnan, hcompare, Bool.or_self,
      Bool.false_eq_true, if_false, beq_self_eq_true]
  | _ => exact beq_self_eq_true _

/-! ## The induction on derivations -/

/-- What holds of every expression that is parsed from a text: its own text is read as tokens that
derive it, it is the same as itself, and if it is a constant then one that can be written. -/
structure Canonical (m : Bool) (e : Expr Unit) : Prop where
  printed : Printed m e.binding e e.text e.nesting
  same : e.same e = true
  writable : ∀ v, e = .literal () v → v.IsWritable

/-- What is canonical has a text wherever any expression may stand. -/
theorem Canonical.printedText (h : Canonical m e) : PrintedText m e := h.printed.whole e.binding_le

/-- The text of what is canonical has tokens that derive it. -/
theorem Canonical.text (h : Canonical m e) :
    ∃ ks, Derives m (.expr Binding.conditional e) ks ∧ Spells e.text.toList ks := by
  obtain ⟨ks, hd, hs⟩ := h.printedText
  exact ⟨ks, hd.derives, hs⟩

/-- A call is the same as itself if its arguments are. -/
theorem same_call {function : String} {args : List (Expr Unit)} (h : ∀ e ∈ args, Canonical m e) :
    (Expr.call () function args).same (.call () function args) = true := by
  rw [Expr.same, Expr.sameList_self fun e he => (h e he).same, Bool.and_true, beq_self_eq_true]

/-- A constant that can be written is canonical. One with a sign is read as the negation of its
opposite. -/
theorem canonical_literal {v : Literal} (hv : v.IsWritable) : Canonical m (.literal () v) := by
  have hplain : ∀ {v : Literal}, v.IsWritable → v.isNegative = false →
      Printed m Binding.member (.literal () v) v.text (.closed 0) := fun hv hsign =>
    Printed.toMember ⟨_, .literal, spells_literal hv hsign⟩
  refine ⟨?_, ?_, fun v' heq => ?_⟩
  · rw [Expr.text, Expr.binding, Expr.nesting]
    cases hsign : v.isNegative with
    | false => exact hplain hv hsign
    | true =>
      -- A constant with a sign is written as its opposite behind a minus sign.
      obtain ⟨v', hv', hsign', htext, hnegation⟩ := exists_opposite hv hsign
      rw [if_pos rfl, if_pos rfl, htext, ← hnegation]
      exact ((hplain hv' hsign').loosen (by decide) (by decide) (by decide)).negate
  · rw [Expr.same]
    exact same_self hv
  · cases heq
    exact hv

/-- What a minus sign makes of an expression. -/
theorem Canonical.negation (h : Canonical m e) : Canonical m (Grammar.negation e) := by
  have hcall : Grammar.negation e = .call () "-_" [e] → Canonical m (Grammar.negation e) := by
    intro hneg
    have hprinted := (h.printed.operand (by decide) (by decide) :
      Printed m Binding.unary e _ _).negate
    rw [hneg] at hprinted ⊢
    refine ⟨?_, ?_, by rintro v ⟨⟩⟩
    · rw [show "-_" = UnaryOp.negate.function from rfl] at hprinted ⊢
      rw [Expr.binding_unary, Expr.text_unary, Expr.nesting_unary]
      exact hprinted
    · exact same_call (List.forall_mem_singleton.2 h)
  cases e with
  | literal mark v =>
    cases v with
    | int n =>
      by_cases hn : n = Int64.minValue
      · exact absurd hn (h.writable _ rfl)
      · rw [Grammar.negation, if_neg hn]
        exact canonical_literal (v := .int (-n)) (neg_ne_minValue hn)
    | double d =>
      -- The opposite of a finite double is finite.
      have hd : d.isFinite = true := h.writable _ rfl
      exact canonical_literal (v := .double d.neg) hd
    | _ => exact hcall rfl
  | _ => exact hcall rfl

/-- What a call without a target is printed as, whether or not it is a macro. -/
theorem canonical_globalCall {args : List (Expr Unit)} (hname : IsName name)
    (hargs : ∀ e ∈ args, Canonical m e) (he : globalCall? m name args = some e) :
    Canonical m e := by
  have hprinted := (Printed.call hname (fun e he => (hargs e he).printedText) he).toMember
  -- Where no macro is meant, the call stays as it is.
  have hplain : e = .call () name args → Canonical m e := by
    rintro rfl
    obtain ⟨htext, hbinding⟩ := Expr.text_call hname args
    refine ⟨?_, same_call hargs, by rintro v ⟨⟩⟩
    rw [htext, hbinding, Expr.nesting_call hname]
    exact hprinted
  unfold globalCall? at he
  split at he
  · rename_i hmacro
    -- The test of a field is printed as the call of `has` that it was.
    obtain ⟨-, rfl⟩ : m = true ∧ name = "has" := by simpa using hmacro
    have hselect := (hargs _ (List.mem_singleton_self _)).same
    rw [Option.some.injEq] at he
    subst he
    refine ⟨?_, ?_, by rintro v ⟨⟩⟩
    · rw [Expr.argsText, List.map_singleton, String.intercalate_singleton, Expr.levelsOf,
        Expr.levelsOf, Nat.max_zero] at hprinted
      exact hprinted
    · rw [Expr.same] at hselect ⊢
      exact hselect
  · cases he
  · exact hplain (Option.some.inj he).symm

/-- What a call on a target is printed as, whether or not it is a macro. -/
theorem canonical_receiverCall {args : List (Expr Unit)} (h : Canonical m e₁)
    (hname : IsName name) (hargs : ∀ e ∈ args, Canonical m e)
    (he : receiverCall? m e₁ name args = some e) : Canonical m e := by
  have hprinted := Printed.invoke (h.printed.operand (by decide) (Nat.le_refl _)) hname
    (fun e he => (hargs e he).printedText) he
  -- Where no loop is meant, the call stays as it is.
  have hplain : e = .invoke () e₁ name args → Canonical m e := by
    rintro rfl
    refine ⟨?_, ?_, by rintro v ⟨⟩⟩
    · rw [Expr.text, Expr.textsOf_eq, Expr.nesting]
      exact hprinted
    · rw [Expr.same, h.same, Expr.sameList_self fun e he => (hargs e he).same, Bool.and_true,
        Bool.true_and, beq_self_eq_true]
  unfold receiverCall? at he
  split at he
  · rename_i loop mark var body hloop
    -- A loop is printed as the call of its name that it was.
    have hloopName : loop.name = name := by
      have hfind := List.find?_some hloop
      simpa using hfind
    rw [Option.some.injEq] at he
    subst he
    refine ⟨?_, ?_, by rintro v ⟨⟩⟩
    · -- The variable and the body are printed as the two arguments that they were.
      have hargsText : Expr.argsText [.ident mark var, body] = var ++ ", " ++ body.text := by
        simp only [Expr.argsText, List.map_cons, List.map_nil, Expr.text,
          String.intercalate_cons_cons, String.intercalate_singleton]
      have hlevels : Expr.levelsOf [.ident mark var, body] =
          max 1 (body.nesting.whole body.binding) := by
        rw [Expr.levelsOf, Expr.levelsOf, Expr.levelsOf, Nat.max_zero]
        rfl
      rw [hargsText, hlevels] at hprinted
      rw [Expr.text, Expr.binding, Expr.nesting, hloopName]
      · simp only [String.append_assoc] at hprinted ⊢
        exact hprinted
      all_goals simp
    · have hbody := (hargs body (by simp)).same
      rw [Expr.same, h.same, hbody]
      simp
  · cases he
  · exact hplain (Option.some.inj he).symm

/-! ### Each construct from its parts -/

/-- A conditional is canonical if its parts are. -/
theorem Canonical.conditional (hc : Canonical m e₁) (ht : Canonical m e₂) (he : Canonical m e₃) :
    Canonical m (.call () Operator.conditional [e₁, e₂, e₃]) := by
  have hargs : ∀ e ∈ [e₁, e₂, e₃], Canonical m e := List.forall_mem_cons.2
    ⟨hc, List.forall_mem_cons.2 ⟨ht, List.forall_mem_singleton.2 he⟩⟩
  refine ⟨?_, same_call hargs, by rintro v ⟨⟩⟩
  rw [Expr.text_conditional, Expr.nesting_conditional]
  exact Printed.conditional (hc.printed.operand (by decide) (by decide))
    (ht.printed.operand (by decide) (by decide)) he.printedText

/-- A binary operator is canonical if its operands are. -/
theorem Canonical.binary {level : Nat} {k : Kind} {op : BinaryOp} (hi : Infix level k op)
    (hl : Canonical m e₁) (hr : Canonical m e₂) : Canonical m (.call () op.function [e₁, e₂]) := by
  have hargs : ∀ e ∈ [e₁, e₂], Canonical m e :=
    List.forall_mem_cons.2 ⟨hl, List.forall_mem_singleton.2 hr⟩
  obtain ⟨-, rfl⟩ := infix_iff.1 hi
  have hor := hi.or_le
  have hle := hi.le_multiplicative
  refine ⟨?_, same_call hargs, by rintro v ⟨⟩⟩
  -- The right operand has to bind tighter than the operator, the left one as tight.
  have hleft := hl.printed.operand hor (Nat.le_trans hle (by decide))
  have hright := hr.printed.operand (Nat.le_succ_of_le hor)
    (Nat.le_trans (Nat.succ_le_succ hle) (by decide))
  rw [Expr.text_binary, Expr.binding_binary, Expr.nesting_binary]
  exact Printed.binary hi hleft hright

/-- The negation of a truth value is canonical if its operand is. -/
theorem Canonical.not (h : Canonical m e) : Canonical m (.call () "!_" [e]) := by
  refine ⟨?_, same_call (List.forall_mem_singleton.2 h), by rintro v ⟨⟩⟩
  have htext := Expr.text_unary .not
  have hbinding := Expr.binding_unary .not
  have hnesting := Expr.nesting_unary .not
  rw [UnaryOp.function] at htext hbinding hnesting
  rw [htext, hbinding, hnesting]
  exact (h.printed.operand (by decide) (by decide)).not

/-- A selection is canonical if its operand is. -/
theorem Canonical.select (h : Canonical m e) (hname : IsName name) :
    Canonical m (.select () e name false) := by
  refine ⟨?_, ?_, by rintro v ⟨⟩⟩
  · rw [Expr.text, Expr.nesting, if_neg Bool.false_ne_true, if_neg Bool.false_ne_true]
    exact (h.printed.operand (by decide) (Nat.le_refl _)).select hname
  · rw [Expr.same, h.same, beq_self_eq_true, beq_self_eq_true]
    rfl

/-- An index is canonical if both parts are. -/
theorem Canonical.index (h : Canonical m e₁) (hi : Canonical m e₂) :
    Canonical m (.call () Operator.index [e₁, e₂]) := by
  have hargs : ∀ e ∈ [e₁, e₂], Canonical m e :=
    List.forall_mem_cons.2 ⟨h, List.forall_mem_singleton.2 hi⟩
  refine ⟨?_, same_call hargs, by rintro v ⟨⟩⟩
  rw [Expr.text_index, Expr.nesting_index]
  exact (h.printed.operand (by decide) (Nat.le_refl _)).index hi.printedText

/-- An identifier is canonical if its name can be written. -/
theorem canonical_ident (hname : IsName name) : Canonical m (.ident () name) := by
  refine ⟨?_, ?_, by rintro v ⟨⟩⟩
  · rw [Expr.text, Expr.nesting]
    exact Printed.toMember ⟨_, .ident, spells_name hname⟩
  · rw [Expr.same, beq_self_eq_true]

/-- A list is canonical if its elements are. -/
theorem canonical_list {es : List (Expr Unit)} (h : ∀ e ∈ es, Canonical m e) :
    Canonical m (.list () es) := by
  refine ⟨?_, ?_, by rintro v ⟨⟩⟩
  · rw [Expr.text, Expr.textsOf_eq, Expr.nesting]
    exact (Printed.list fun e he => (h e he).printedText).toMember
  · rw [Expr.same, Expr.sameList_self fun e he => (h e he).same]

/-- A map is canonical if its keys and values are. -/
theorem canonical_map {es : List (Expr Unit × Expr Unit)}
    (h : ∀ e ∈ es, Canonical m e.1 ∧ Canonical m e.2) : Canonical m (.map () es) := by
  refine ⟨?_, ?_, by rintro v ⟨⟩⟩
  · rw [Expr.text, Expr.textsOfEntries_eq, Expr.nesting]
    exact (Printed.map fun e he => ⟨(h e he).1.printedText, (h e he).2.printedText⟩).toMember
  · rw [Expr.same, Expr.sameEntries_self fun e he => ⟨(h e he).1.same, (h e he).2.same⟩]

/-- What holds of the expressions of a phrase that is parsed from a text. -/
def CanonicalPhrase (m : Bool) : Phrase → Prop
  | .expr _ e => Canonical m e
  | .items es => ∀ e ∈ es, Canonical m e
  | .entries es => ∀ e ∈ es, Canonical m e.1 ∧ Canonical m e.2

/-- Tokens of a text derive expressions whose own texts are read back. -/
theorem canonical_of_derives {p : Phrase} (h : Derives m p ks) (hks : ∀ k ∈ ks, k.IsReadable) :
    CanonicalPhrase m p := by
  induction h with
  -- Each rule makes its expression from parts, and the parts are canonical where their tokens can
  -- be read.
  | tighter _ _ ih => exact ih hks
  | conditional _ _ _ ihc iht ihe =>
    simp only [List.forall_mem_append, List.forall_mem_cons] at hks
    exact Canonical.conditional (ihc hks.1) (iht hks.2.2.1) (ihe hks.2.2.2.2)
  | binary hi _ _ ihl ihr =>
    simp only [List.forall_mem_append, List.forall_mem_cons] at hks
    exact Canonical.binary hi (ihl hks.1) (ihr hks.2.2)
  | not _ ih => exact Canonical.not (ih fun k hk => hks k (List.mem_cons_of_mem _ hk))
  | negate _ ih => exact Canonical.negation (ih fun k hk => hks k (List.mem_cons_of_mem _ hk))
  | select _ ih =>
    simp only [List.forall_mem_append, List.forall_mem_cons] at hks
    exact Canonical.select (ih hks.1) hks.2.2.1
  | index _ _ ihe ihi =>
    simp only [List.forall_mem_append, List.forall_mem_cons] at hks
    exact Canonical.index (ihe hks.1) (ihi hks.2.2.1)
  | invoke _ _ he iht iha =>
    simp only [List.forall_mem_append, List.forall_mem_cons] at hks
    exact canonical_receiverCall (iht hks.1) hks.2.2.1 (iha hks.2.2.2.2.1) he
  | literal => exact canonical_literal (hks _ List.mem_cons_self)
  | ident => exact canonical_ident (hks _ List.mem_cons_self)
  | call _ he ih =>
    simp only [List.forall_mem_append, List.forall_mem_cons] at hks
    exact canonical_globalCall hks.1 (ih hks.2.2.1) he
  | parens _ ih =>
    simp only [List.forall_mem_append, List.forall_mem_cons] at hks
    exact ih hks.2.1
  | list _ ih =>
    simp only [List.forall_mem_append, List.forall_mem_cons] at hks
    exact canonical_list (ih hks.2.1)
  | map _ ih =>
    simp only [List.forall_mem_append, List.forall_mem_cons] at hks
    exact canonical_map (ih hks.2.1)
  | noItems | noEntries => exact List.forall_mem_nil _
  | lastItem _ ih => exact List.forall_mem_singleton.2 (ih hks)
  | moreItems _ _ ih ihs =>
    simp only [List.forall_mem_append, List.forall_mem_cons] at hks
    exact List.forall_mem_cons.2 ⟨ih hks.1, ihs hks.2.2⟩
  | lastEntry _ _ ihk ihv =>
    simp only [List.forall_mem_append, List.forall_mem_cons] at hks
    exact List.forall_mem_singleton.2 ⟨ihk hks.1, ihv hks.2.2⟩
  | moreEntries _ _ _ ihk ihv ihs =>
    simp only [List.forall_mem_append, List.forall_mem_cons] at hks
    exact List.forall_mem_cons.2 ⟨⟨ihk hks.1, ihv hks.2.2.1⟩, ihs hks.2.2.2.2⟩

end Grammar

namespace Expr

open Grammar

/-- Printing and parsing are inverse up to the nesting limit. Where a text is parsed, with macros or
without, the canonical text of its expression is parsed as the same expression again, or nesting
stops the parser; it fails in no other way and gives no other expression. -/
theorem parse_text (source : String) (m : Bool) (t : Tree) (h : parse source m = .ok t) :
    (∃ t', parse t.text m = .ok t' ∧ t'.same t = true) ∨
      ∃ err, parse t.text m = .error err ∧ err.IsNestingLimit := by
  unfold parse at h
  cases htokens : Token.list source with
  | error e => rw [htokens] at h; cases h
  | ok tokens =>
    rw [htokens] at h
    obtain ⟨ks, hkinds, hlexes⟩ := lexes_of_listFrom htokens
    have heof : Kind.eof ∉ ks := fun hmem => hlexes.isReadable _ hmem
    have hcanonical : Canonical m t.bare :=
      canonical_of_derives (derives_of_ofTokens hkinds heof h) hlexes.isReadable
    -- The tokens of the text need not be those of the source, but they derive the same expression.
    obtain ⟨ks', hderives, hspells⟩ := hcanonical.text
    have hlexes' : Lexes t.text.toList ks' := by
      have hdone := hspells .finish (.done rfl)
      rwa [List.append_nil, List.append_nil, bare, text_remark] at hdone
    obtain ⟨tokens', hlist, hkinds'⟩ := hlexes'.exists_listFrom .start
    have hparse : parse t.text m = ofTokens tokens' m := by
      unfold parse
      rw [Token.list, hlist]
    rw [hparse]
    rcases ofTokens_of_derives hkinds' hderives with ⟨t', ht', hbare⟩ | herr
    · refine .inl ⟨t', ht', ?_⟩
      have hsame := same_remark (fun _ => ()) (fun _ => ()) t' t
      rw [← hsame]
      change t'.bare.same t.bare = true
      rw [hbare]
      exact hcanonical.same
    · exact .inr herr

/-- A test of a field, a loop, a double and a negative constant before a point are read back. -/
theorem parse_text_macros :
    ∃ t, parse "[has( a.b )].all(x,x?- 2.50:(-3).y)" true = .ok t ∧
      t.text = "[has(a.b)].all(x, x ? -2.5 : (-3).y)" ∧
      ((∃ t', parse t.text true = .ok t' ∧ t'.same t = true) ∨
        ∃ err, parse t.text true = .error err ∧ err.IsNestingLimit) := by
  have htext : (parse "[has( a.b )].all(x,x?- 2.50:(-3).y)" true).toOption.map text =
      some "[has(a.b)].all(x, x ? -2.5 : (-3).y)" := by decide +kernel
  cases h : parse "[has( a.b )].all(x,x?- 2.50:(-3).y)" true with
  | error e => rw [h] at htext; cases htext
  | ok t =>
    rw [h] at htext
    exact ⟨t, rfl, Option.some.inj htext, parse_text _ true t h⟩

end Expr

end CelShell
