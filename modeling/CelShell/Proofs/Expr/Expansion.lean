import CelShell.Expr.Basic

/-!
# Expanding macros

`Expr.expand` puts tests of fields and loops in the place of the calls that stand for them, all over
a tree and from the leaves up. A call of a macro has to have arguments that the macro takes, so an
expansion can fail; where it does can be read off the tree before anything is expanded, because an
argument keeps what decides how it is used (`shape_expand`, `exists_expand`).
-/

namespace CelShell

namespace Expr

variable {α β : Type}

/-! ## Expansion -/

/-- The test for the field that a tree selects. -/
def presenceTest? (m : α) : Expr α → Option (Expr α)
  | select _ operand field false => some (.select m operand field true)
  | _ => none

/-- What a call without a target is expanded to. The macro `has` takes one argument, which has to
select a field. -/
def expandCall? (m : α) (function : String) : List (Expr α) → Option (Expr α)
  | [arg] => if function = "has" then presenceTest? m arg else some (.call m function [arg])
  | args => some (.call m function args)

/-- The loop over a target whose variable is the name that a tree is. -/
def loopOver? (m : α) (loop : Loop) (target body : Expr α) : Expr α → Option (Expr α)
  | ident _ var => some (.comprehension m loop var target body)
  | _ => none

/-- What a call on a target is expanded to. A loop macro takes two arguments, of which the first has
to be a name. -/
def expandInvoke? (m : α) (target : Expr α) (function : String) : List (Expr α) → Option (Expr α)
  | [var, body] =>
    match Loop.ofName? function with
    | some loop => loopOver? m loop target body var
    | none => some (.invoke m target function [var, body])
  | args => some (.invoke m target function args)

mutual

/-- The tree with its macros expanded, those inside of others first. -/
def expand : Expr α → Option (Expr α)
  | ident m name => some (.ident m name)
  | literal m value => some (.literal m value)
  | select m operand field testOnly => do return .select m (← expand operand) field testOnly
  | call m function args => do expandCall? m function (← expandList args)
  | invoke m target function args => do
    expandInvoke? m (← expand target) function (← expandList args)
  | list m elements => do return .list m (← expandList elements)
  | map m entries => do return .map m (← expandEntries entries)
  | comprehension m loop var range body => do
    return .comprehension m loop var (← expand range) (← expand body)

/-- The trees with their macros expanded. -/
def expandList : List (Expr α) → Option (List (Expr α))
  | [] => some []
  | e :: rest => do return (← expand e) :: (← expandList rest)

/-- The entries with their macros expanded. -/
def expandEntries : List (Expr α × Expr α) → Option (List (Expr α × Expr α))
  | [] => some []
  | (k, v) :: rest => do return (← expand k, ← expand v) :: (← expandEntries rest)

end

-- The equations of the recursion are made ready here, once for all that rewrites with them.
attribute [local simp] expand expandList expandEntries

variable {m : α} {e e' a b c a' b' : Expr α} {es es' args : List (Expr α)}
  {entries entries' : List (Expr α × Expr α)} {function field : String} {testOnly : Bool}

/-! ## One node -/

/-- A selection is expanded if its operand is. -/
theorem expand_select : (select m e field testOnly).expand = some e' ↔
    ∃ e₁, e.expand = some e₁ ∧ select m e₁ field testOnly = e' := by
  simp only [expand, Option.bind_eq_bind, Option.bind_eq_some_iff, Option.pure_def,
    Option.some.injEq]

/-- A call is expanded in its arguments, and then as the macro that it may be. -/
theorem expand_call : (call m function args).expand = some e' ↔
    ∃ args₁, expandList args = some args₁ ∧ expandCall? m function args₁ = some e' := by
  simp only [expand, Option.bind_eq_bind, Option.bind_eq_some_iff]

/-- A call on a target is expanded in the target, in its arguments, and then as the macro that it
may be. -/
theorem expand_invoke : (invoke m e function args).expand = some e' ↔
    ∃ e₁, e.expand = some e₁ ∧ ∃ args₁, expandList args = some args₁ ∧
      expandInvoke? m e₁ function args₁ = some e' := by
  simp only [expand, Option.bind_eq_bind, Option.bind_eq_some_iff]

/-- A list is expanded if its elements are. -/
theorem expand_list : (list m es).expand = some e' ↔
    ∃ es₁, expandList es = some es₁ ∧ list m es₁ = e' := by
  simp only [expand, Option.bind_eq_bind, Option.bind_eq_some_iff, Option.pure_def,
    Option.some.injEq]

/-- A map is expanded if its entries are. -/
theorem expand_map : (map m entries).expand = some e' ↔
    ∃ entries₁, expandEntries entries = some entries₁ ∧ map m entries₁ = e' := by
  simp only [expand, Option.bind_eq_bind, Option.bind_eq_some_iff, Option.pure_def,
    Option.some.injEq]

/-- A loop is expanded if its range and its body are. -/
theorem expand_comprehension {loop : Loop} {var : String} :
    (comprehension m loop var a b).expand = some e' ↔
      ∃ a₁, a.expand = some a₁ ∧ ∃ b₁, b.expand = some b₁ ∧
        comprehension m loop var a₁ b₁ = e' := by
  simp only [expand, Option.bind_eq_bind, Option.bind_eq_some_iff, Option.pure_def,
    Option.some.injEq]

/-- Expressions are expanded one after the other. -/
theorem expandList_cons : expandList (e :: es) = some es' ↔
    ∃ e₁, e.expand = some e₁ ∧ ∃ es₁, expandList es = some es₁ ∧ e₁ :: es₁ = es' := by
  simp only [expandList, Option.bind_eq_bind, Option.bind_eq_some_iff, Option.pure_def,
    Option.some.injEq]

/-- Entries are expanded one after the other, each key before its value. -/
theorem expandEntries_cons : expandEntries ((a, b) :: entries) = some entries' ↔
    ∃ a₁, a.expand = some a₁ ∧ ∃ b₁, b.expand = some b₁ ∧
      ∃ entries₁, expandEntries entries = some entries₁ ∧ (a₁, b₁) :: entries₁ = entries' := by
  simp only [expandEntries, Option.bind_eq_bind, Option.bind_eq_some_iff, Option.pure_def,
    Option.some.injEq]

/-- A call of any function but `has` stays a call. -/
theorem expand_call_of_ne (h : function ≠ "has") : (call m function args).expand = some e' ↔
    ∃ args₁, expandList args = some args₁ ∧ call m function args₁ = e' := by
  have hcall : ∀ args₁, expandCall? m function args₁ = some (call m function args₁) := by
    intro args₁
    fun_cases expandCall? m function args₁ <;> simp_all
  simp only [expand_call, hcall, Option.some.injEq]

/-! ## Misused macros -/

/-- What decides how a tree is used as an argument or operand. -/
inductive Shape where
  | name | constant
  /-- The selection of a field, and no test for it. -/
  | field
  | other
  deriving DecidableEq

/-- The shape of a tree. -/
def shape : Expr α → Shape
  | ident _ _ => .name
  | literal _ _ => .constant
  | select _ _ _ false => .field
  | _ => .other

/-- Whether the arguments are those of a macro without a target, but not as it takes them. -/
def misusesHas (function : String) : List (Expr α) → Bool
  | [arg] => function == "has" && arg.shape != .field
  | _ => false

/-- Whether the arguments are those of a macro on a target, but not as it takes them. -/
def misusesLoop (function : String) : List (Expr α) → Bool
  | [var, _] => (Loop.ofName? function).isSome && var.shape != .name
  | _ => false

/-- Whether the root is a call of a macro with arguments that the macro does not take. -/
def isMisusedMacro : Expr α → Bool
  | call _ function args => misusesHas function args
  | invoke _ _ function args => misusesLoop function args
  | _ => false

/-- A call is expanded unless it misuses `has`. -/
theorem exists_expandCall :
    (∃ e', expandCall? m function args = some e') ↔ misusesHas function args = false := by
  match args with
  | [] | _ :: _ :: _ => simp [expandCall?, misusesHas]
  | [arg] =>
    by_cases hf : function = "has"
    · simp only [expandCall?, misusesHas, hf, if_true, beq_self_eq_true, Bool.true_and]
      match arg with
      | .select _ _ _ false | .select _ _ _ true | .ident .. | .literal .. | .call .. | .invoke ..
      | .list .. | .map .. | .comprehension .. => simp [presenceTest?, shape]
    · simp [expandCall?, misusesHas, hf]

/-- A call on a target is expanded unless it misuses a macro of loops. -/
theorem exists_expandInvoke :
    (∃ e', expandInvoke? m e function args = some e') ↔ misusesLoop function args = false := by
  match args with
  | [] | [_] | _ :: _ :: _ :: _ => simp [expandInvoke?, misusesLoop]
  | [var, body] =>
    cases hf : Loop.ofName? function with
    | none => simp [expandInvoke?, misusesLoop, hf]
    | some loop =>
      simp only [expandInvoke?, misusesLoop, hf, Option.isSome_some, Bool.true_and]
      match var with
      | .select _ _ _ false | .select _ _ _ true | .ident .. | .literal .. | .call .. | .invoke ..
      | .list .. | .map .. | .comprehension .. => simp [loopOver?, shape]

/-- A call is expanded to nothing that decides how it is used. -/
theorem shape_expandCall (h : expandCall? m function args = some e') : e'.shape = .other := by
  unfold expandCall? at h
  split at h
  · split at h
    · unfold presenceTest? at h
      split at h <;> cases h
      rfl
    · cases h
      rfl
  · cases h
    rfl

/-- What a call on a target is expanded to is neither a name nor a constant nor a selection, so it
is no argument that a macro takes apart. -/
theorem shape_expandInvoke (h : expandInvoke? m e function args = some e') :
    e'.shape = .other := by
  unfold expandInvoke? at h
  split at h
  · split at h
    · unfold loopOver? at h
      split at h <;> cases h
      rfl
    · cases h
      rfl
  · cases h
    rfl

/-- An expansion keeps the shape. -/
theorem shape_expand (h : e.expand = some e') : e'.shape = e.shape := by
  cases e with
  | ident | literal =>
    rw [expand, Option.some.injEq] at h
    exact h ▸ rfl
  | select _ _ _ testOnly =>
    obtain ⟨_, -, rfl⟩ := expand_select.mp h
    cases testOnly <;> rfl
  | call =>
    obtain ⟨_, -, hcall⟩ := expand_call.mp h
    exact shape_expandCall hcall
  | invoke =>
    obtain ⟨_, -, _, -, hinvoke⟩ := expand_invoke.mp h
    exact shape_expandInvoke hinvoke
  | list =>
    obtain ⟨_, -, rfl⟩ := expand_list.mp h
    rfl
  | map =>
    obtain ⟨_, -, rfl⟩ := expand_map.mp h
    rfl
  | comprehension =>
    obtain ⟨_, -, _, -, rfl⟩ := expand_comprehension.mp h
    rfl

/-- Whether a macro is misused can be told before its arguments are expanded. -/
theorem misuses_expandList (h : expandList es = some es') :
    misusesHas function es' = misusesHas function es ∧
      misusesLoop function es' = misusesLoop function es := by
  -- The test of a macro looks at one argument or at two, so the number of arguments decides.
  match es with
  | [] =>
    cases h
    exact ⟨rfl, rfl⟩
  | [a] =>
    obtain ⟨_, ha, _, hnil, rfl⟩ := expandList_cons.mp h
    cases hnil
    exact ⟨by rw [misusesHas, misusesHas, shape_expand ha], rfl⟩
  | [a, b] =>
    obtain ⟨_, ha, _, hrest, rfl⟩ := expandList_cons.mp h
    obtain ⟨_, -, _, hnil, rfl⟩ := expandList_cons.mp hrest
    cases hnil
    exact ⟨rfl, by rw [misusesLoop, misusesLoop, shape_expand ha]⟩
  | a :: b :: c :: rest =>
    obtain ⟨_, -, _, hrest₁, rfl⟩ := expandList_cons.mp h
    obtain ⟨_, -, _, hrest₂, rfl⟩ := expandList_cons.mp hrest₁
    obtain ⟨_, -, _, -, rfl⟩ := expandList_cons.mp hrest₂
    exact ⟨rfl, rfl⟩

mutual

/-- An expansion succeeds if no macro is misused, however deep it is nested. -/
theorem exists_expand : ∀ e : Expr α,
    (∃ e', e.expand = some e') ↔ ∀ n ∈ e.nodes, n.isMisusedMacro = false
  | ident _ _ => by simp [expand, nodes, isMisusedMacro]
  | literal _ _ => by simp [expand, nodes, isMisusedMacro]
  | select m operand field testOnly => by
    have hroot : (select m operand field testOnly).isMisusedMacro = false := rfl
    simp only [nodes, List.forall_mem_cons, hroot, true_and, ← exists_expand operand,
      expand_select]
    grind
  | call m function args => by
    -- The arguments are expanded first, and the call may be misused all the same.
    have hroot : (call m function args).isMisusedMacro = misusesHas function args := rfl
    simp only [nodes, List.forall_mem_cons, hroot, ← exists_expandList args, expand_call]
    constructor
    · rintro ⟨e', args₁, hargs, hcall⟩
      rw [← (misuses_expandList hargs).1]
      exact ⟨exists_expandCall.mp ⟨e', hcall⟩, args₁, hargs⟩
    · rintro ⟨hmisuse, args₁, hargs⟩
      rw [← (misuses_expandList hargs).1] at hmisuse
      obtain ⟨e', hcall⟩ := exists_expandCall.mpr hmisuse
      exact ⟨e', args₁, hargs, hcall⟩
  | invoke m target function args => by
    have hroot : (invoke m target function args).isMisusedMacro = misusesLoop function args := rfl
    simp only [nodes, List.forall_mem_cons, List.forall_mem_append, hroot,
      ← exists_expand target, ← exists_expandList args, expand_invoke]
    constructor
    · rintro ⟨e', target₁, htarget, args₁, hargs, hinvoke⟩
      rw [← (misuses_expandList hargs).2]
      exact ⟨exists_expandInvoke.mp ⟨e', hinvoke⟩, ⟨target₁, htarget⟩, args₁, hargs⟩
    · rintro ⟨hmisuse, ⟨target₁, htarget⟩, args₁, hargs⟩
      rw [← (misuses_expandList hargs).2] at hmisuse
      obtain ⟨e', hinvoke⟩ := exists_expandInvoke.mpr hmisuse
      exact ⟨e', target₁, htarget, args₁, hargs, hinvoke⟩
  | list m elements => by
    have hroot : (list m elements).isMisusedMacro = false := rfl
    simp only [nodes, List.forall_mem_cons, hroot, true_and, ← exists_expandList elements,
      expand_list]
    grind
  | map m entries => by
    have hroot : (map m entries).isMisusedMacro = false := rfl
    simp only [nodes, List.forall_mem_cons, hroot, true_and, ← exists_expandEntries entries,
      expand_map]
    grind
  | comprehension m loop var range body => by
    have hroot : (comprehension m loop var range body).isMisusedMacro = false := rfl
    simp only [nodes, List.forall_mem_cons, List.forall_mem_append, hroot, true_and,
      ← exists_expand range, ← exists_expand body, expand_comprehension]
    grind

/-- Expressions can all be expanded if none of their nodes misuses a macro. -/
theorem exists_expandList : ∀ es : List (Expr α),
    (∃ es', expandList es = some es') ↔ ∀ n ∈ nodesOfList es, n.isMisusedMacro = false
  | [] => by simp [expandList, nodesOfList]
  | e :: rest => by
    simp only [nodesOfList, List.forall_mem_append, ← exists_expand e, ← exists_expandList rest,
      expandList_cons]
    grind

/-- Entries can all be expanded if none of their nodes misuses a macro. -/
theorem exists_expandEntries : ∀ es : List (Expr α × Expr α),
    (∃ es', expandEntries es = some es') ↔ ∀ n ∈ nodesOfEntries es, n.isMisusedMacro = false
  | [] => by simp [expandEntries, nodesOfEntries]
  | (k, v) :: rest => by
    simp only [nodesOfEntries, List.forall_mem_append, ← exists_expand k, ← exists_expand v,
      ← exists_expandEntries rest, expandEntries_cons]
    grind

end

/-! ## Marks -/

/-- Whether a call is a macro does not depend on the marks. -/
theorem expandCall?_remark (f : α → β) (m : α) (function : String) (args : List (Expr α)) :
    expandCall? (f m) function (remarkList f args) =
      (expandCall? m function args).map (remark f) := by
  match args with
  | [] | _ :: _ :: _ => rfl
  | [arg] =>
    by_cases hf : function = "has"
    · simp only [remarkList, expandCall?, hf, if_true]
      match arg with
      | .select _ _ _ false | .select _ _ _ true | .ident .. | .literal .. | .call .. | .invoke ..
      | .list .. | .map .. | .comprehension .. => rfl
    · simp only [remarkList, expandCall?, hf, if_false]
      rfl

/-- Whether a call on a target is a macro does not depend on the marks. -/
theorem expandInvoke?_remark (f : α → β) (m : α) (target : Expr α) (function : String)
    (args : List (Expr α)) :
    expandInvoke? (f m) (remark f target) function (remarkList f args) =
      (expandInvoke? m target function args).map (remark f) := by
  match args with
  | [] | [_] | _ :: _ :: _ :: _ => rfl
  | [var, body] =>
    simp only [remarkList, expandInvoke?]
    cases Loop.ofName? function with
    | none => rfl
    | some loop => cases var <;> rfl

mutual

/-- An expansion does not look at marks. -/
theorem expand_remark (f : α → β) :
    (e : Expr α) → (e.remark f).expand = e.expand.map (remark f)
  | ident _ _ | literal _ _ => rfl
  | select _ operand _ _ => by
    rw [remark, expand, expand, expand_remark f operand]
    cases operand.expand <;> rfl
  | call m function args => by
    rw [remark, expand, expand, expandList_remarkList f args]
    cases expandList args with
    | none => rfl
    -- What a macro makes of a call is told by the arguments.
    | some args₁ => exact expandCall?_remark f m function args₁
  | invoke m target function args => by
    rw [remark, expand, expand, expand_remark f target, expandList_remarkList f args]
    cases target.expand with
    | none => rfl
    | some target₁ =>
      cases expandList args with
      | none => rfl
      | some args₁ => exact expandInvoke?_remark f m target₁ function args₁
  | list _ elements => by
    rw [remark, expand, expand, expandList_remarkList f elements]
    cases expandList elements <;> rfl
  | map _ entries => by
    rw [remark, expand, expand, expandEntries_remarkEntries f entries]
    cases expandEntries entries <;> rfl
  | comprehension _ _ _ range body => by
    rw [remark, expand, expand, expand_remark f range, expand_remark f body]
    cases range.expand <;> cases body.expand <;> rfl

/-- The marks of expressions have no part in their expansion. -/
theorem expandList_remarkList (f : α → β) :
    (es : List (Expr α)) → expandList (remarkList f es) = (expandList es).map (remarkList f)
  | [] => rfl
  | e :: rest => by
    rw [remarkList, expandList, expandList, expand_remark f e, expandList_remarkList f rest]
    cases e.expand <;> cases expandList rest <;> rfl

/-- The marks of entries have no part in their expansion. -/
theorem expandEntries_remarkEntries (f : α → β) : (es : List (Expr α × Expr α)) →
    expandEntries (remarkEntries f es) = (expandEntries es).map (remarkEntries f)
  | [] => rfl
  | (k, v) :: rest => by
    rw [remarkEntries, expandEntries, expandEntries, expand_remark f k, expand_remark f v,
      expandEntries_remarkEntries f rest]
    cases k.expand <;> cases v.expand <;> cases expandEntries rest <;> rfl

end

end Expr

end CelShell
