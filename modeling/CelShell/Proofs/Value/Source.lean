import CelShell.Eval.Program
import CelShell.Proofs.Expr.Calls
import CelShell.Proofs.Grammar.Reprinting
import CelShell.Proofs.Typing.Soundness

/-!
# Values as source text

The text of a value is an expression that denotes it. `Value.expr` is that expression: constants in
lists and maps, nested as the value is. The text of the value is its canonical text
(`Value.text_expr`), so parsing gives it back unless nesting stops the parser. Whatever marks the
parser puts on it, the tree is well typed, calls no function and has no variable, and its value is
the one that was printed: `Denotes` says this of a tree, with a lemma for each construct, and
`denotes_of_bare` is the induction on the value. A map comes back with its entries in order because
each of its keys is new when its turn comes.
-/

namespace CelShell

namespace Table

variable {κ α : Type} [DecidableEq κ] {table : Table κ α} {key : κ} {value : α}

/-- A look-up fails for the keys that a table does not have. -/
theorem get?_eq_none_iff : get? table key = none ↔ key ∉ keys table := by
  induction table with
  | nil => simp [get?, keys]
  | cons p rest ih =>
    obtain ⟨k, v⟩ := p
    rw [keys, List.map_cons, List.mem_cons, not_or, ← keys, ← ih, get?]
    by_cases h : k = key
    · simp [h]
    · simp [h, Ne.symm h]

/-- A key without a value gets one at the end. -/
theorem insert_of_get?_eq_none (h : get? table key = none) :
    insert table key value = table ++ [(key, value)] := by
  induction table with
  | nil => rfl
  | cons p rest ih =>
    obtain ⟨k, v⟩ := p
    rw [get?] at h
    by_cases hk : k = key
    · rw [if_pos hk] at h
      cases h
    · rw [if_neg hk] at h
      rw [insert, if_neg hk, ih h, List.cons_append]

end Table

/-- A key as a constant. -/
def MapKey.literal : MapKey → Literal
  | bool b => .bool b
  | int n => .int n
  | uint n => .uint n
  | string s => .string s

/-- A key is written like its constant. -/
theorem MapKey.text_literal (k : MapKey) : k.literal.text = k.text := by
  cases k <;> rfl

/-- The value of the constant of a key is that key again. -/
theorem MapKey.toKey?_ofLiteral (k : MapKey) : (Value.ofLiteral k.literal).toKey? = some k := by
  cases k <;> rfl

/-- The constant of a key has a type that keys may have. -/
theorem MapKey.isMapKey_ofLiteral (k : MapKey) : (Ty.ofLiteral k.literal).isMapKey = true := by
  cases k <;> rfl

namespace Value

/-- A value that source text can denote: its doubles are finite, no int in it is the least one,
which cannot be written, and the keys of each of its maps differ from each other. -/
inductive IsDenotable : Value → Prop
  | literal {l : Literal} (h : l.IsWritable) : IsDenotable (ofLiteral l)
  | list {items : List Value} (h : ∀ v ∈ items, IsDenotable v) : IsDenotable (list items)
  | map {entries : List (MapKey × Value)} (hdistinct : (Table.keys entries).Nodup)
      (hkeys : ∀ e ∈ entries, e.1.literal.IsWritable) (hvalues : ∀ e ∈ entries, IsDenotable e.2) :
      IsDenotable (map entries)

/-! ## The expression that is printed -/

mutual

/-- The expression whose canonical text is the text of a value. -/
def expr : Value → Expr Unit
  | null => .literal () .null
  | bool b => .literal () (.bool b)
  | int n => .literal () (.int n)
  | uint n => .literal () (.uint n)
  | double d => .literal () (.double d)
  | string s => .literal () (.string s)
  | list items => .list () (exprs items)
  | map entries => .map () (entryExprs entries)

/-- The expressions of values. -/
def exprs : List Value → List (Expr Unit)
  | [] => []
  | v :: rest => v.expr :: exprs rest

/-- The expressions of entries. -/
def entryExprs : List (MapKey × Value) → List (Expr Unit × Expr Unit)
  | [] => []
  | (k, v) :: rest => (.literal () k.literal, v.expr) :: entryExprs rest

end

/-- The value of a constant is written as that constant. -/
theorem expr_ofLiteral (l : Literal) : (ofLiteral l).expr = .literal () l := by
  cases l <;> rfl

/-- The items of a list are written one by one. -/
theorem exprs_eq (items : List Value) : exprs items = items.map expr := by
  induction items with
  | nil => rfl
  | cons v rest ih => rw [exprs, ih, List.map_cons]

/-- The entries of a map are written one by one. -/
theorem entryExprs_eq (entries : List (MapKey × Value)) :
    entryExprs entries = entries.map fun e => (.literal () e.1.literal, e.2.expr) := by
  induction entries with
  | nil => rfl
  | cons e rest ih => rw [entryExprs, ih, List.map_cons]

mutual

/-- The text of a value is the canonical text of an expression. -/
theorem text_expr : (v : Value) → v.expr.text = v.text
  | null | bool _ | int _ | uint _ | double _ | string _ => by
    rw [expr, Expr.text, text, Literal.text]
  | list items => by rw [expr, Expr.text, text, textsOf_exprs items]
  | map entries => by rw [expr, Expr.text, text, textsOfEntries_entryExprs entries]

/-- The texts of the items are those of what they are written as. -/
theorem textsOf_exprs : (items : List Value) → Expr.textsOf (exprs items) = texts items
  | [] => rfl
  | v :: rest => by rw [exprs, Expr.textsOf, texts, text_expr v, textsOf_exprs rest]

/-- The texts of the entries are those of what they are written as. -/
theorem textsOfEntries_entryExprs : (entries : List (MapKey × Value)) →
    Expr.textsOfEntries (entryExprs entries) = entryTexts entries
  | [] => rfl
  | (k, v) :: rest => by
    rw [entryExprs, Expr.textsOfEntries, entryTexts, text_expr v, textsOfEntries_entryExprs rest,
      Expr.text, k.text_literal]

end

open Grammar in
/-- What a value is written as is canonical, if it holds constants that can be written. -/
theorem IsDenotable.canonical_expr {v : Value} (h : v.IsDenotable) (m : Bool) :
    Canonical m v.expr := by
  induction h with
  | literal hl =>
    rw [expr_ofLiteral]
    exact canonical_literal hl
  | list _ ih =>
    rw [expr, exprs_eq]
    exact canonical_list (List.forall_mem_map.2 ih)
  | map _ hkeys _ ih =>
    rw [expr, entryExprs_eq]
    exact canonical_map (List.forall_mem_map.2 fun e he =>
      ⟨canonical_literal (hkeys e he), ih e he⟩)

/-! ## What the printed expression denotes -/

/-- A tree is well typed wherever it stands, calls no function, and has a value whatever the
variables and functions are. -/
structure Denotes (t : Tree) (v : Value) : Prop where
  typed : ∀ (d : Declarations) (scope : Table String Ty), ∃ ty, t.infer d scope = pure ty
  called : t.called = []
  value : ∀ (i : Interface Id) (scope : Table String Value), t.evaluate i scope = pure v

/-- An entry of a map: its key is a constant. -/
def DenotesEntry (t : Tree × Tree) (e : MapKey × Value) : Prop :=
  (∃ mark, t.1 = .literal mark e.1.literal) ∧ Denotes t.2 e.2

section

variable {ts : List Tree} {vs : List Value} {es : List (Tree × Tree)}
  {entries : List (MapKey × Value)}

/-- A constant denotes its value. -/
theorem denotes_literal (mark : Mark) (l : Literal) : Denotes (.literal mark l) (ofLiteral l) where
  typed _ _ := ⟨Ty.ofLiteral l, rfl⟩
  called := rfl
  value _ _ := rfl

/-- A list of trees denotes the list of what these do. -/
theorem denotes_list (mark : Mark) (h : List.Forall₂ Denotes ts vs) :
    Denotes (.list mark ts) (list vs) where
  typed d scope := by
    -- The elements are typed without an error, so their join is the type of the elements.
    have htypes : ∃ types, Expr.inferList d scope ts = pure types := by
      induction h with
      | nil => exact ⟨[], rfl⟩
      | cons hfirst _ ih =>
        obtain ⟨ty, hty⟩ := hfirst.typed d scope
        obtain ⟨types, htypes⟩ := ih
        exact ⟨ty :: types, by rw [Expr.inferList, hty, htypes]; rfl⟩
    obtain ⟨types, htypes⟩ := htypes
    exact ⟨.list (Ty.joinAll types), by rw [Expr.infer, htypes]; rfl⟩
  called := by
    rw [Expr.called_list]
    induction h with
    | nil => rfl
    | cons hfirst _ ih => rw [Expr.calledOfList_cons, hfirst.called, ih, List.append_nil]
  value i scope := by
    have hall : Evaluation.all (Expr.suspended i scope ts) = pure vs := by
      induction h with
      | nil => rfl
      | cons hfirst _ ih =>
        rw [Expr.suspended, Evaluation.all, hfirst.value i scope, pure_bind, ih, pure_bind]
    rw [Expr.evaluate, hall, pure_bind]

/-- The entries that are still to come are put after those that the map has. -/
theorem mapOf_of_denotes (h : List.Forall₂ DenotesEntry es entries) (i : Interface Id)
    (scope : Table String Value) (before : List (MapKey × Value))
    (hdistinct : (Table.keys (before ++ entries)).Nodup) :
    Evaluation.mapOf before (Expr.suspendedEntries i scope es) =
      pure (map (before ++ entries)) := by
  induction h generalizing before with
  | nil => rw [Expr.suspendedEntries, Evaluation.mapOf, List.append_nil]
  | @cons t e _ rest hentry _ ih =>
    obtain ⟨⟨mark, hkey⟩, hvalue⟩ := hentry
    have hnew : Table.get? before e.1 = none := by
      refine Table.get?_eq_none_iff.2 fun hmem => ?_
      rw [Table.keys, List.map_append, List.nodup_append] at hdistinct
      exact hdistinct.2.2 _ hmem _ (List.mem_map_of_mem List.mem_cons_self) rfl
    have hcontains : Table.contains before e.1 = false := by rw [Table.contains, hnew]; rfl
    rw [List.append_cons] at hdistinct ⊢
    rw [Expr.suspendedEntries, Evaluation.mapOf, hkey, (denotes_literal mark _).value, pure_bind,
      hvalue.value, pure_bind, e.1.toKey?_ofLiteral]
    -- The key is new, so its entry goes to the end.
    show (if Table.contains before e.1 = true then _ else _) = _
    rw [hcontains, if_neg Bool.false_ne_true, Table.insert_of_get?_eq_none hnew]
    exact ih _ hdistinct

/-- Entries of trees denote the map of what these do, if no key comes twice. -/
theorem denotes_map (mark : Mark) (h : List.Forall₂ DenotesEntry es entries)
    (hdistinct : (Table.keys entries).Nodup) : Denotes (.map mark es) (map entries) where
  typed d scope := by
    have htypes : ∃ types, Expr.inferEntries d scope es = pure types := by
      clear hdistinct
      induction h with
      | nil => exact ⟨[], rfl⟩
      | @cons t e _ _ hentry _ ih =>
        obtain ⟨⟨mark, hkey⟩, hvalue⟩ := hentry
        obtain ⟨ty, hty⟩ := hvalue.typed d scope
        obtain ⟨types, htypes⟩ := ih
        refine ⟨(Ty.ofLiteral e.1.literal, ty) :: types, ?_⟩
        rw [Expr.inferEntries, hkey, Expr.infer, hty, htypes]
        -- The key can be one, so nothing is reported between its type and that of the value.
        show (do
          if !(Ty.ofLiteral e.1.literal).isMapKey then Inferred.report _ _
          _ : Inferred _) = _
        rw [e.1.isMapKey_ofLiteral]
        rfl
    obtain ⟨types, htypes⟩ := htypes
    exact ⟨_, by rw [Expr.infer, htypes]; rfl⟩
  called := by
    rw [Expr.called_map]
    clear hdistinct
    induction h with
    | nil => rfl
    | cons hentry _ ih =>
      obtain ⟨⟨mark, hkey⟩, hvalue⟩ := hentry
      rw [Expr.calledOfEntries_cons, hkey, (denotes_literal mark _).called, hvalue.called, ih]
      rfl
  value i scope := by
    rw [Expr.evaluate]
    exact mapOf_of_denotes h i scope [] hdistinct

end

/-- Two lists that agree through two views agree element by element. -/
theorem forall₂_of_map_eq {α β γ : Type} {R : α → β → Prop} {f : α → γ} {g : β → γ} {as : List α}
    {bs : List β} (h : as.map f = bs.map g) (hR : ∀ a, ∀ b ∈ bs, f a = g b → R a b) :
    List.Forall₂ R as bs := by
  induction bs generalizing as with
  | nil =>
    obtain rfl := List.map_eq_nil_iff.1 h
    exact .nil
  | cons b bs ih =>
    obtain ⟨a, as, rfl, hab, has⟩ := List.map_eq_cons_iff.1 h
    exact .cons (hR a b List.mem_cons_self hab)
      (ih has fun a b hb => hR a b (List.mem_cons_of_mem _ hb))

/-- Whatever its marks are, a tree of the shape that is printed for a value denotes the value. -/
theorem IsDenotable.denotes_of_bare {v : Value} (h : v.IsDenotable) {t : Tree}
    (ht : t.bare = v.expr) : Denotes t v := by
  induction h generalizing t with
  | @literal l _ =>
    rw [expr_ofLiteral] at ht
    cases t with
    | literal mark l' =>
      obtain rfl : l' = l := by simpa using ht
      exact denotes_literal mark l'
    | _ => cases ht
  | list _ ih =>
    rw [expr, exprs_eq] at ht
    cases t with
    | list mark ts =>
      rw [Expr.bare_list, Expr.list.injEq] at ht
      exact denotes_list mark (forall₂_of_map_eq ht.2 fun t v hv htv => ih v hv htv)
    | _ => cases ht
  | map hdistinct _ _ ih =>
    rw [expr, entryExprs_eq] at ht
    cases t with
    | map mark es =>
      rw [Expr.bare_map, Expr.map.injEq] at ht
      refine denotes_map mark (forall₂_of_map_eq ht.2 fun t e he hte => ?_) hdistinct
      -- The key is printed as a constant, so it is one in the tree.
      obtain ⟨hkey, hvalue⟩ := Prod.mk.inj hte
      refine ⟨?_, ih e he hvalue⟩
      cases hlit : t.1 with
      | literal mark' l =>
        rw [hlit] at hkey
        cases hkey
        exact ⟨mark', rfl⟩
      | _ => rw [hlit] at hkey; cases hkey
    | _ => cases ht

open Grammar in
/-- Printed values are source text. The text of a value is parsed, with macros or without, unless it
is nested too deep, and nothing but the levels of its expression decides that. The tree is accepted
with the standard declarations and no variables, and the value of its program, which has no bindings
and no variables, is the value that was printed, with the entries of its maps in their order. -/
theorem IsDenotable.eval_parse_text {v : Value} (h : v.IsDenotable) (m : Bool) :
    (maxDepth < v.expr.levels ∧ ∃ err, Expr.parse v.text m = .error err ∧ err.IsNestingLimit) ∨
      (v.expr.levels ≤ maxDepth ∧ ∃ t, Expr.parse v.text m = .ok t ∧
        (∃ ty, t.check .standard = .ok ty) ∧
          ∃ p, Program.build t [] = .ok p ∧ p.eval [] = .ok v) := by
  obtain ⟨tokens, ks, hparse, hkinds, htakes⟩ := Expr.exists_takes (h.canonical_expr m)
  rw [text_expr] at hparse
  -- The canonical expression is read from the tokens of the text, and its levels decide.
  obtain ⟨hfits, hdeep⟩ := Expr.ofTokens_of_takes hkinds htakes
  rw [hparse]
  rcases Nat.lt_or_ge maxDepth v.expr.levels with hlt | hle
  · exact .inl ⟨hlt, hdeep hlt⟩
  · obtain ⟨t, ht, hbare⟩ := hfits hle
    have hdenotes := h.denotes_of_bare hbare
    obtain ⟨ty, hty⟩ := hdenotes.typed .standard []
    have hcheck : t.check .standard = .ok ty := by
      rw [Expr.check, hty]
      rfl
    have hbuild : Program.build t [] = .ok ⟨t, []⟩ := by
      -- The tree calls nothing, so no function can be missing.
      have hmissing : t.missing? [] = none := by
        rw [Expr.missing?, ← Expr.called, hdenotes.called]
        rfl
      rw [Program.build, hmissing]
    exact .inr ⟨hle, t, ht, ⟨ty, hcheck⟩, ⟨t, []⟩, hbuild, hdenotes.value _ []⟩

/-- Keys of two types, a list, an empty map, and negative numbers of both types. -/
def nested : Value :=
  map [
    (.string "a\n",
      list [double ⟨true, 1024 * Binary64.binade + 2 ^ 50, by decide⟩, uint 3, null]),
    (.int (-7), map [])]

/-- A newline in a key is printed as an escape, and the signs are no part of the constants. -/
theorem eval_parse_text_nested :
    nested.IsDenotable ∧ nested.text = "\x7b\"a\\n\": [-2.5, 3u, null], -7: \x7b\x7d\x7d" ∧
      ∃ t, Expr.parse nested.text true = .ok t ∧ (∃ ty, t.check .standard = .ok ty) ∧
        ∃ p, Program.build t [] = .ok p ∧ p.eval [] = .ok nested := by
  have hdouble : (double ⟨true, 1024 * Binary64.binade + 2 ^ 50, by decide⟩).IsDenotable :=
    IsDenotable.literal (l := .double _) (rfl : Double.isFinite _ = true)
  have huint : (uint 3).IsDenotable := IsDenotable.literal (l := .uint 3) trivial
  have hnull : null.IsDenotable := IsDenotable.literal (l := .null) trivial
  have hlist : (list [double _, uint 3, null]).IsDenotable :=
    .list (List.forall_mem_cons.2 ⟨hdouble, List.forall_mem_cons.2 ⟨huint,
      List.forall_mem_singleton.2 hnull⟩⟩)
  have hempty : (map []).IsDenotable := .map List.nodup_nil nofun nofun
  have hint : (Literal.int (-7)).IsWritable := by
    show (-7 : Int64) ≠ Int64.minValue
    decide
  have h : nested.IsDenotable := .map (by decide)
    (List.forall_mem_cons.2 ⟨trivial, List.forall_mem_singleton.2 hint⟩)
    (List.forall_mem_cons.2 ⟨hlist, List.forall_mem_singleton.2 hempty⟩)
  refine ⟨h, by decide +kernel, ?_⟩
  rcases h.eval_parse_text true with ⟨hdeep, -⟩ | ⟨-, hvalue⟩
  · exact absurd hdeep (by decide)
  · exact hvalue

end Value

end CelShell
