import CelShell.Proofs.Expr.Expansion
import CelShell.Proofs.Grammar.Recognition

/-!
# Macros as a pass of their own

With macros on, the parser expands a macro as soon as it has read the call. It gives the same tree
as a run with macros off whose tree is expanded afterwards. An expansion looks at nothing but the
name and the arguments of a call, so what is derived with macros on are the expansions of what is
derived with macros off (`Takes.expand`, `Takes.expandedFrom`), from the same tokens and with the
same levels of nesting. A misused macro stops the parser in the middle of the tokens, and there is
no derivation then; the separate pass fails on the whole tree instead.
-/

namespace CelShell

namespace Grammar

open CelShell.Expr

variable {e e' a b a' b' : Expr Unit} {es es' args : List (Expr Unit)} {ks : List Kind}
  {n : Nesting} {p p' : Phrase} {name : String}

/-! ## Derivations -/

/-- What is read as macros expanded. -/
def Phrase.expand : Phrase → Option Phrase
  | .expr level e => e.expand.map (.expr level)
  | .items es => (expandList es).map .items
  | .entries es => (expandEntries es).map .entries

/-- The macros of the grammar are those that are expanded. -/
theorem globalCall?_eq (name : String) (args : List (Expr Unit)) :
    globalCall? true name args = expandCall? () name args := by
  unfold globalCall? expandCall?
  rw [Bool.true_and]
  by_cases hname : name = "has"
  · rw [beq_iff_eq.mpr hname]
    -- The test takes one argument, and that has to be a selection.
    rcases args with _ | ⟨arg, _ | ⟨_, _⟩⟩
    case cons.nil =>
      cases arg with
      | select _ _ _ testOnly => cases testOnly <;> simp [hname, presenceTest?]
      | _ => simp [hname, presenceTest?]
    all_goals simp
  · rw [beq_eq_false_iff_ne.mpr hname]
    rcases args with _ | ⟨_, _ | ⟨_, _⟩⟩ <;> simp [hname]

/-- A call on a target is what the separate pass makes of it. -/
theorem receiverCall?_eq (target : Expr Unit) (name : String) (args : List (Expr Unit)) :
    receiverCall? true target name args = expandInvoke? () target name args := by
  unfold receiverCall? expandInvoke?
  cases Loop.ofName? name with
  | none =>
    match args with
    | [] | [_] | [_, _] | _ :: _ :: _ :: _ => rfl
  | some loop =>
    match args with
    | [] | [_] | _ :: _ :: _ :: _ => simp
    | [.ident .., _] | [.select .., _] | [.literal .., _] | [.call .., _] | [.invoke .., _]
    | [.list .., _] | [.map .., _] | [.comprehension .., _] => rfl

/-- Two trees that a chain or an operator puts into a call. -/
theorem expand_pair {function : String} : (Expr.call () function [a, b]).expand = some e' ↔
    ∃ a₁, a.expand = some a₁ ∧ ∃ b₁, b.expand = some b₁ ∧ .call () function [a₁, b₁] = e' := by
  simp only [expand_call, expandList_cons]
  constructor
  · rintro ⟨_, ⟨a₁, ha, _, ⟨b₁, hb, _, hnil, rfl⟩, rfl⟩, h⟩
    cases hnil
    exact ⟨a₁, ha, b₁, hb, Option.some.inj h⟩
  · rintro ⟨a₁, ha, b₁, hb, rfl⟩
    exact ⟨_, ⟨a₁, ha, _, ⟨b₁, hb, [], rfl, rfl⟩, rfl⟩, rfl⟩

/-- The three parts of a conditional. -/
theorem expand_triple {function : String} : (Expr.call () function [a, b, c]).expand = some e' ↔
    ∃ a₁, a.expand = some a₁ ∧ ∃ b₁, b.expand = some b₁ ∧ ∃ c₁, c.expand = some c₁ ∧
      .call () function [a₁, b₁, c₁] = e' := by
  simp only [expand_call, expandList_cons]
  constructor
  · rintro ⟨_, ⟨a₁, ha, _, ⟨b₁, hb, _, ⟨c₁, hc, _, hnil, rfl⟩, rfl⟩, rfl⟩, h⟩
    cases hnil
    exact ⟨a₁, ha, b₁, hb, c₁, hc, Option.some.inj h⟩
  · rintro ⟨a₁, ha, b₁, hb, c₁, hc, rfl⟩
    exact ⟨_, ⟨a₁, ha, _, ⟨b₁, hb, _, ⟨c₁, hc, [], rfl, rfl⟩, rfl⟩, rfl⟩, rfl⟩

/-- The operand of a negation that is no constant. -/
theorem expand_single {function : String} (hname : function ≠ "has") :
    (Expr.call () function [a]).expand = some e' ↔
      ∃ a₁, a.expand = some a₁ ∧ .call () function [a₁] = e' := by
  simp only [expand_call_of_ne hname, expandList_cons]
  constructor
  · rintro ⟨_, ⟨a₁, ha, _, hnil, rfl⟩, rfl⟩
    cases hnil
    exact ⟨a₁, ha, rfl⟩
  · rintro ⟨a₁, ha, rfl⟩
    exact ⟨_, ⟨a₁, ha, [], rfl, rfl⟩, rfl⟩

/-- A minus sign makes a call of what is no constant. -/
theorem negation_of_shape (h : e.shape ≠ .constant) : negation e = .call () "-_" [e] := by
  cases e with
  | literal => exact absurd rfl h
  | _ => rfl

/-- A minus sign makes the same of an operand before and after its macros are expanded. -/
theorem expand_negation :
    (negation e).expand = some e' ↔ ∃ e₁, e.expand = some e₁ ∧ negation e₁ = e' := by
  have hcall : (Expr.call () "-_" [e]).expand = some e' ↔
      ∃ e₁, e.expand = some e₁ ∧ .call () "-_" [e₁] = e' := expand_single (by decide)
  -- Only a constant takes the sign in, and an expansion leaves constants alone.
  by_cases hconstant : e.shape = .constant
  · cases e with
    | literal mark value =>
      have hself : ∀ e₁ : Expr Unit, (Expr.literal mark value).expand = some e₁ ↔
          .literal mark value = e₁ := fun e₁ => by rw [expand, Option.some.injEq]
      simp only [hself, exists_eq_left'] at hcall ⊢
      cases value with
      | int i =>
        rw [negation]
        split
        · exact hcall
        · rw [expand, Option.some.injEq]
      | double => rw [negation, expand, Option.some.injEq]
      | _ => exact hcall
    | select _ _ _ t => cases t <;> cases hconstant
    | _ => cases hconstant
  · rw [negation_of_shape hconstant, hcall]
    refine exists_congr fun e₁ => and_congr_right fun he => ?_
    rw [negation_of_shape (shape_expand he ▸ hconstant)]

/-- An expression of a level is expanded as an expression. -/
theorem Phrase.expand_expr {level : Nat} :
    (Phrase.expr level e).expand = some p' ↔ ∃ e₁, e.expand = some e₁ ∧ .expr level e₁ = p' :=
  Option.map_eq_some_iff

/-- Expressions between commas are expanded one after the other. -/
theorem Phrase.expand_items :
    (Phrase.items es).expand = some p' ↔ ∃ es₁, expandList es = some es₁ ∧ .items es₁ = p' :=
  Option.map_eq_some_iff

/-- Entries between commas are expanded one after the other. -/
theorem Phrase.expand_entries {entries : List (Expr Unit × Expr Unit)} :
    (Phrase.entries entries).expand = some p' ↔
      ∃ entries₁, expandEntries entries = some entries₁ ∧ .entries entries₁ = p' :=
  Option.map_eq_some_iff

/-- Without macros a call is a call. -/
theorem globalCall?_false (h : globalCall? false name args = some e) : .call () name args = e := by
  unfold globalCall? at h
  rw [Bool.false_and] at h
  exact Option.some.inj h

/-- With macros off, a call on a target is no macro. -/
theorem receiverCall?_false (h : receiverCall? false a name args = some e) :
    .invoke () a name args = e := Option.some.inj h

/-- The tokens of a tree, and the levels that they take, are those of the tree with its macros
expanded. -/
theorem Takes.expand (h : Takes false p ks n) (hp : p.expand = some p') : Takes true p' ks n := by
  -- Each case takes the expansion apart at the root and puts the derivation together again.
  induction h generalizing p' with
  | tighter hle _ ih =>
    obtain ⟨e₁, he, rfl⟩ := Phrase.expand_expr.mp hp
    exact .tighter hle (ih (Phrase.expand_expr.mpr ⟨e₁, he, rfl⟩))
  | conditional _ _ _ ihc iht ihe =>
    obtain ⟨_, hcall, rfl⟩ := Phrase.expand_expr.mp hp
    obtain ⟨c₁, hc, t₁, ht, e₁, he, rfl⟩ := expand_triple.mp hcall
    exact .conditional (ihc (Phrase.expand_expr.mpr ⟨c₁, hc, rfl⟩))
      (iht (Phrase.expand_expr.mpr ⟨t₁, ht, rfl⟩)) (ihe (Phrase.expand_expr.mpr ⟨e₁, he, rfl⟩))
  | binary hi _ _ ihl ihr =>
    obtain ⟨_, hcall, rfl⟩ := Phrase.expand_expr.mp hp
    obtain ⟨l₁, hl, r₁, hr, rfl⟩ := expand_pair.mp hcall
    exact .binary hi (ihl (Phrase.expand_expr.mpr ⟨l₁, hl, rfl⟩))
      (ihr (Phrase.expand_expr.mpr ⟨r₁, hr, rfl⟩))
  | not _ ih =>
    obtain ⟨_, hcall, rfl⟩ := Phrase.expand_expr.mp hp
    obtain ⟨e₁, he, rfl⟩ := (expand_single (by decide)).mp hcall
    exact .not (ih (Phrase.expand_expr.mpr ⟨e₁, he, rfl⟩))
  | negate _ ih =>
    obtain ⟨_, hnegation, rfl⟩ := Phrase.expand_expr.mp hp
    obtain ⟨e₁, he, rfl⟩ := expand_negation.mp hnegation
    exact .negate (ih (Phrase.expand_expr.mpr ⟨e₁, he, rfl⟩))
  | select _ ih =>
    obtain ⟨_, hselect, rfl⟩ := Phrase.expand_expr.mp hp
    obtain ⟨e₁, he, rfl⟩ := expand_select.mp hselect
    exact .select (ih (Phrase.expand_expr.mpr ⟨e₁, he, rfl⟩))
  | index _ _ ihe ihi =>
    obtain ⟨_, hcall, rfl⟩ := Phrase.expand_expr.mp hp
    obtain ⟨e₁, he, i₁, hi, rfl⟩ := expand_pair.mp hcall
    exact .index (ihe (Phrase.expand_expr.mpr ⟨e₁, he, rfl⟩))
      (ihi (Phrase.expand_expr.mpr ⟨i₁, hi, rfl⟩))
  | invoke _ _ he iht iha =>
    obtain rfl := receiverCall?_false he
    obtain ⟨_, hinvoke, rfl⟩ := Phrase.expand_expr.mp hp
    obtain ⟨t₁, ht, args₁, hargs, hinvoke⟩ := expand_invoke.mp hinvoke
    exact .invoke (iht (Phrase.expand_expr.mpr ⟨t₁, ht, rfl⟩))
      (iha (Phrase.expand_items.mpr ⟨args₁, hargs, rfl⟩)) ((receiverCall?_eq _ _ _).trans hinvoke)
  | literal =>
    cases hp
    exact .literal
  | ident =>
    cases hp
    exact .ident
  | call _ he ih =>
    obtain rfl := globalCall?_false he
    obtain ⟨_, hcall, rfl⟩ := Phrase.expand_expr.mp hp
    obtain ⟨args₁, hargs, hcall⟩ := expand_call.mp hcall
    exact .call (ih (Phrase.expand_items.mpr ⟨args₁, hargs, rfl⟩))
      ((globalCall?_eq _ _).trans hcall)
  | parens _ ih =>
    obtain ⟨e₁, he, rfl⟩ := Phrase.expand_expr.mp hp
    exact .parens (ih (Phrase.expand_expr.mpr ⟨e₁, he, rfl⟩))
  | list _ ih =>
    obtain ⟨_, hlist, rfl⟩ := Phrase.expand_expr.mp hp
    obtain ⟨es₁, hes, rfl⟩ := expand_list.mp hlist
    exact .list (ih (Phrase.expand_items.mpr ⟨es₁, hes, rfl⟩))
  | map _ ih =>
    obtain ⟨_, hmap, rfl⟩ := Phrase.expand_expr.mp hp
    obtain ⟨es₁, hes, rfl⟩ := expand_map.mp hmap
    exact .map (ih (Phrase.expand_entries.mpr ⟨es₁, hes, rfl⟩))
  | noItems =>
    cases hp
    exact .noItems
  | lastItem _ ih =>
    obtain ⟨_, hes, rfl⟩ := Phrase.expand_items.mp hp
    obtain ⟨e₁, he, _, hnil, rfl⟩ := expandList_cons.mp hes
    cases hnil
    exact .lastItem (ih (Phrase.expand_expr.mpr ⟨e₁, he, rfl⟩))
  | moreItems _ _ ih ihs =>
    obtain ⟨_, hall, rfl⟩ := Phrase.expand_items.mp hp
    obtain ⟨e₁, he, es₁, hes, rfl⟩ := expandList_cons.mp hall
    exact .moreItems (ih (Phrase.expand_expr.mpr ⟨e₁, he, rfl⟩))
      (ihs (Phrase.expand_items.mpr ⟨es₁, hes, rfl⟩))
  | noEntries =>
    cases hp
    exact .noEntries
  | lastEntry _ _ ihk ihv =>
    obtain ⟨_, hes, rfl⟩ := Phrase.expand_entries.mp hp
    obtain ⟨k₁, hk, v₁, hv, _, hnil, rfl⟩ := expandEntries_cons.mp hes
    cases hnil
    exact .lastEntry (ihk (Phrase.expand_expr.mpr ⟨k₁, hk, rfl⟩))
      (ihv (Phrase.expand_expr.mpr ⟨v₁, hv, rfl⟩))
  | moreEntries _ _ _ ihk ihv ihs =>
    obtain ⟨_, hall, rfl⟩ := Phrase.expand_entries.mp hp
    obtain ⟨k₁, hk, v₁, hv, es₁, hes, rfl⟩ := expandEntries_cons.mp hall
    exact .moreEntries (ihk (Phrase.expand_expr.mpr ⟨k₁, hk, rfl⟩))
      (ihv (Phrase.expand_expr.mpr ⟨v₁, hv, rfl⟩))
      (ihs (Phrase.expand_entries.mpr ⟨es₁, hes, rfl⟩))

/-- The tokens of a phrase are those of a phrase that is expanded to it. -/
def ExpandedFrom (p' : Phrase) (ks : List Kind) (n : Nesting) : Prop :=
  ∃ p, p.expand = some p' ∧ Takes false p ks n

namespace ExpandedFrom

variable {level : Nat}

/-- The tokens of an expression are those of what it is expanded to. -/
theorem of_expr (he : e.expand = some e') (h : Takes false (.expr level e) ks n) :
    ExpandedFrom (.expr level e') ks n := ⟨_, Phrase.expand_expr.mpr ⟨e', he, rfl⟩, h⟩

/-- The tokens of expressions are those of what they are expanded to. -/
theorem of_items (he : expandList es = some es') (h : Takes false (.items es) ks n) :
    ExpandedFrom (.items es') ks n := ⟨_, Phrase.expand_items.mpr ⟨es', he, rfl⟩, h⟩

/-- The tokens of entries are those of what they are expanded to. -/
theorem of_entries {entries entries' : List (Expr Unit × Expr Unit)}
    (he : expandEntries entries = some entries') (h : Takes false (.entries entries) ks n) :
    ExpandedFrom (.entries entries') ks n :=
  ⟨_, Phrase.expand_entries.mpr ⟨entries', he, rfl⟩, h⟩

/-- The tokens of an expression come from one that is expanded to it. -/
theorem expr (h : ExpandedFrom (.expr level e') ks n) :
    ∃ e, e.expand = some e' ∧ Takes false (.expr level e) ks n := by
  obtain ⟨p, hp, h⟩ := h
  cases p with
  | expr =>
    obtain ⟨_, he, heq⟩ := Phrase.expand_expr.mp hp
    cases heq
    exact ⟨_, he, h⟩
  | items =>
    obtain ⟨_, -, heq⟩ := Phrase.expand_items.mp hp
    cases heq
  | entries =>
    obtain ⟨_, -, heq⟩ := Phrase.expand_entries.mp hp
    cases heq

/-- The tokens of expressions come from ones that are expanded to them. -/
theorem items (h : ExpandedFrom (.items es') ks n) :
    ∃ es, expandList es = some es' ∧ Takes false (.items es) ks n := by
  obtain ⟨p, hp, h⟩ := h
  cases p with
  | expr =>
    obtain ⟨_, -, heq⟩ := Phrase.expand_expr.mp hp
    cases heq
  | items =>
    obtain ⟨_, hes, heq⟩ := Phrase.expand_items.mp hp
    cases heq
    exact ⟨_, hes, h⟩
  | entries =>
    obtain ⟨_, -, heq⟩ := Phrase.expand_entries.mp hp
    cases heq

/-- The tokens of entries come from ones that are expanded to them. -/
theorem entries {entries' : List (Expr Unit × Expr Unit)}
    (h : ExpandedFrom (.entries entries') ks n) :
    ∃ es, expandEntries es = some entries' ∧ Takes false (.entries es) ks n := by
  obtain ⟨p, hp, h⟩ := h
  cases p with
  | expr =>
    obtain ⟨_, -, heq⟩ := Phrase.expand_expr.mp hp
    cases heq
  | items =>
    obtain ⟨_, -, heq⟩ := Phrase.expand_items.mp hp
    cases heq
  | entries =>
    obtain ⟨_, hes, heq⟩ := Phrase.expand_entries.mp hp
    cases heq
    exact ⟨_, hes, h⟩

end ExpandedFrom

/-- What is derived with macros on is derived with macros off and then expanded. -/
theorem Takes.expandedFrom (h : Takes true p' ks n) : ExpandedFrom p' ks n := by
  -- The tokens stay the same, so each rule is applied to the parts before their expansion.
  induction h with
  | tighter hle _ ih =>
    obtain ⟨_, he, h⟩ := ih.expr
    exact .of_expr he (.tighter hle h)
  | conditional _ _ _ ihc iht ihe =>
    obtain ⟨_, hc, h₁⟩ := ihc.expr
    obtain ⟨_, ht, h₂⟩ := iht.expr
    obtain ⟨_, he, h₃⟩ := ihe.expr
    exact .of_expr (expand_triple.mpr ⟨_, hc, _, ht, _, he, rfl⟩) (.conditional h₁ h₂ h₃)
  | binary hi _ _ ihl ihr =>
    obtain ⟨_, hl, h₁⟩ := ihl.expr
    obtain ⟨_, hr, h₂⟩ := ihr.expr
    exact .of_expr (expand_pair.mpr ⟨_, hl, _, hr, rfl⟩) (.binary hi h₁ h₂)
  | not _ ih =>
    obtain ⟨_, he, h⟩ := ih.expr
    exact .of_expr ((expand_single (by decide)).mpr ⟨_, he, rfl⟩) (.not h)
  | negate _ ih =>
    obtain ⟨_, he, h⟩ := ih.expr
    exact .of_expr (expand_negation.mpr ⟨_, he, rfl⟩) (.negate h)
  | select _ ih =>
    obtain ⟨_, he, h⟩ := ih.expr
    exact .of_expr (expand_select.mpr ⟨_, he, rfl⟩) (.select h)
  | index _ _ ihe ihi =>
    obtain ⟨_, he, h₁⟩ := ihe.expr
    obtain ⟨_, hi, h₂⟩ := ihi.expr
    exact .of_expr (expand_pair.mpr ⟨_, he, _, hi, rfl⟩) (.index h₁ h₂)
  | invoke _ _ he iht iha =>
    obtain ⟨_, ht, h₁⟩ := iht.expr
    obtain ⟨_, ha, h₂⟩ := iha.items
    rw [receiverCall?_eq] at he
    exact .of_expr (expand_invoke.mpr ⟨_, ht, _, ha, he⟩) (.invoke h₁ h₂ rfl)
  | literal => exact .of_expr rfl .literal
  | ident => exact .of_expr rfl .ident
  | call _ he ih =>
    obtain ⟨_, ha, h⟩ := ih.items
    rw [globalCall?_eq] at he
    exact .of_expr (expand_call.mpr ⟨_, ha, he⟩) (.call h rfl)
  | parens _ ih =>
    obtain ⟨_, he, h⟩ := ih.expr
    exact .of_expr he (.parens h)
  | list _ ih =>
    obtain ⟨_, hes, h⟩ := ih.items
    exact .of_expr (expand_list.mpr ⟨_, hes, rfl⟩) (.list h)
  | map _ ih =>
    obtain ⟨_, hes, h⟩ := ih.entries
    exact .of_expr (expand_map.mpr ⟨_, hes, rfl⟩) (.map h)
  | noItems => exact .of_items rfl .noItems
  | lastItem _ ih =>
    obtain ⟨_, he, h⟩ := ih.expr
    exact .of_items (expandList_cons.mpr ⟨_, he, [], rfl, rfl⟩) (.lastItem h)
  | moreItems _ _ ih ihs =>
    obtain ⟨_, he, h₁⟩ := ih.expr
    obtain ⟨_, hes, h₂⟩ := ihs.items
    exact .of_items (expandList_cons.mpr ⟨_, he, _, hes, rfl⟩) (.moreItems h₁ h₂)
  | noEntries => exact .of_entries rfl .noEntries
  | lastEntry _ _ ihk ihv =>
    obtain ⟨_, hk, h₁⟩ := ihk.expr
    obtain ⟨_, hv, h₂⟩ := ihv.expr
    exact .of_entries (expandEntries_cons.mpr ⟨_, hk, _, hv, [], rfl, rfl⟩) (.lastEntry h₁ h₂)
  | moreEntries _ _ _ ihk ihv ihs =>
    obtain ⟨_, hk, h₁⟩ := ihk.expr
    obtain ⟨_, hv, h₂⟩ := ihv.expr
    obtain ⟨_, hes, h₃⟩ := ihs.entries
    exact .of_entries (expandEntries_cons.mpr ⟨_, hk, _, hv, _, hes, rfl⟩)
      (.moreEntries h₁ h₂ h₃)

end Grammar

namespace Expr

open Grammar

variable {tokens : List Token} {ks : List Kind} {macrosOn : Bool} {t : Tree}

/-! ## Whole texts of tokens -/

/-- A tree that came out of tokens did not take too many levels. -/
theorem takes_of_ofTokens (htokens : tokens.map Token.kind = ks ++ [.eof]) (hks : Kind.eof ∉ ks)
    (h : ofTokens tokens macrosOn = .ok t) :
    ∃ n, Takes macrosOn (.expr Binding.conditional t.bare) ks n ∧ n.levels ≤ maxDepth := by
  obtain ⟨n, htakes⟩ := (derives_of_ofTokens htokens hks h).exists_takes
  refine ⟨n, htakes, Nat.not_lt.mp fun hdeep => ?_⟩
  obtain ⟨err, herr, -⟩ := (ofTokens_of_takes htokens htakes).2 hdeep
  rw [h] at herr
  cases herr

/-- The expansion of a tree without its marks. -/
theorem expand_bare {e : Expr Unit} :
    t.bare.expand = some e ↔ ∃ t₁, t.expand = some t₁ ∧ t₁.bare = e := by
  rw [bare, expand_remark, Option.map_eq_some_iff]
  rfl

/-- Macros can be expanded while a text is parsed or afterwards. A list of tokens that ends in its
only end mark gives a tree with macros on if and only if it gives a tree with macros off that is
expanded to it. An expansion fails exactly where a macro is misused: `has` on one argument that
does not select a field, or a loop macro on two arguments of which the first is no name. -/
theorem ofTokens_expands (tokens : List Token) (last : Token) (hlast : last.kind = .eof)
    (honly : ∀ t ∈ tokens, t.kind ≠ .eof) :
    (∀ e : Expr Unit,
      (∃ t, ofTokens (tokens ++ [last]) true = .ok t ∧ t.bare = e) ↔
        ∃ t, ofTokens (tokens ++ [last]) false = .ok t ∧
          ∃ t₁, t.expand = some t₁ ∧ t₁.bare = e) ∧
    ∀ t, ofTokens (tokens ++ [last]) false = .ok t →
      (t.expand = none ↔ ∃ n ∈ t.nodes, n.isMisusedMacro = true) := by
  have hkinds : (tokens ++ [last]).map Token.kind = tokens.map Token.kind ++ [.eof] := by
    rw [List.map_append, List.map_singleton, hlast]
  have heof : Kind.eof ∉ tokens.map Token.kind := fun h => by
    obtain ⟨t, ht, hk⟩ := List.mem_map.1 h
    exact honly t ht hk
  refine ⟨fun e => ⟨?_, ?_⟩, fun t _ => ?_⟩
  · -- The tokens derive a tree with macros off too, which takes no more levels.
    rintro ⟨t, ht, rfl⟩
    obtain ⟨n, htakes, hlevels⟩ := takes_of_ofTokens hkinds heof ht
    obtain ⟨e₀, he, htakes₀⟩ := htakes.expandedFrom.expr
    obtain ⟨t₀, ht₀, rfl⟩ := (ofTokens_of_takes hkinds htakes₀).1 hlevels
    exact ⟨t₀, ht₀, expand_bare.mp he⟩
  · rintro ⟨t₀, ht₀, t₁, hexpand, rfl⟩
    obtain ⟨n, htakes₀, hlevels⟩ := takes_of_ofTokens hkinds heof ht₀
    have htakes := htakes₀.expand
      (Phrase.expand_expr.mpr ⟨t₁.bare, expand_bare.mpr ⟨t₁, hexpand, rfl⟩, rfl⟩)
    exact (ofTokens_of_takes hkinds htakes).1 hlevels
  · rw [← Option.not_isSome_iff_eq_none, Option.isSome_iff_exists, exists_expand]
    simp only [Classical.not_forall, Bool.not_eq_false, exists_prop]

/-- A test for a field in the body of a loop is a test for a field in a loop, and a test of a mere
name has no expansion. -/
theorem ofTokens_expands_nested :
    (∃ t, ofTokens
        [⟨.ident "xs", .dummy⟩, ⟨.symbol .dot, .dummy⟩, ⟨.ident "all", .dummy⟩,
          ⟨.symbol .leftParen, .dummy⟩, ⟨.ident "x", .dummy⟩, ⟨.symbol .comma, .dummy⟩,
          ⟨.ident "has", .dummy⟩, ⟨.symbol .leftParen, .dummy⟩, ⟨.ident "x", .dummy⟩,
          ⟨.symbol .dot, .dummy⟩, ⟨.ident "f", .dummy⟩, ⟨.symbol .rightParen, .dummy⟩,
          ⟨.symbol .rightParen, .dummy⟩, ⟨.eof, .dummy⟩] true = .ok t ∧
      t.bare = .comprehension () .all "x" (.ident () "xs")
        (.select () (.ident () "x") "f" true)) ∧
    ∃ t, ofTokens
        [⟨.ident "has", .dummy⟩, ⟨.symbol .leftParen, .dummy⟩, ⟨.ident "x", .dummy⟩,
          ⟨.symbol .rightParen, .dummy⟩, ⟨.eof, .dummy⟩] false = .ok t ∧ t.expand = none :=
  ⟨((ofTokens_expands
      [⟨.ident "xs", .dummy⟩, ⟨.symbol .dot, .dummy⟩, ⟨.ident "all", .dummy⟩,
        ⟨.symbol .leftParen, .dummy⟩, ⟨.ident "x", .dummy⟩, ⟨.symbol .comma, .dummy⟩,
        ⟨.ident "has", .dummy⟩, ⟨.symbol .leftParen, .dummy⟩, ⟨.ident "x", .dummy⟩,
        ⟨.symbol .dot, .dummy⟩, ⟨.ident "f", .dummy⟩, ⟨.symbol .rightParen, .dummy⟩,
        ⟨.symbol .rightParen, .dummy⟩] ⟨.eof, .dummy⟩ rfl (by decide)).1 _).mpr
      ⟨_, rfl, _, rfl, rfl⟩,
    _, rfl,
    ((ofTokens_expands
      [⟨.ident "has", .dummy⟩, ⟨.symbol .leftParen, .dummy⟩, ⟨.ident "x", .dummy⟩,
        ⟨.symbol .rightParen, .dummy⟩] ⟨.eof, .dummy⟩ rfl (by decide)).2 _ rfl).mpr
      ⟨_, .head _, rfl⟩⟩

end Expr

end CelShell
