import CelShell.Proofs.Eval.Search

/-!
# Loops that go through all elements

`filter` and `exists_one` run the same selection: each goes by the outcomes of its body up to the
first one that is no truth value, and keeps the items of which the body holds
(`Evaluation.keep_run`). They differ in what they make of the items kept, and in the name by which
they refuse a value that is no truth value. `map` goes by the outcomes of its body up to the first
error (`Evaluation.collect_eq_ok_iff`, `Evaluation.collect_eq_error_iff`).
-/

namespace CelShell

/-- Two errors that are the same, but for the names under which two functions refuse their
arguments. -/
inductive EvalError.SameButName (f g : String) : EvalError → EvalError → Prop where
  /-- Any error. -/
  | same (e : EvalError) : SameButName f g e e
  /-- The arguments have types that neither function takes. -/
  | refused (types : List String) : SameButName f g (.noOverload f types) (.noOverload g types)

namespace Evaluation

/-- An evaluation after the outcome of another. -/
theorem run_bind_eq {α β : Type} (x : Evaluation Id α) (f : α → Evaluation Id β) :
    (x >>= f).run = match x.run with
      | .ok a => (f a).run
      | .error e => .error e := by
  rw [ExceptT.run_bind]
  cases x.run <;> rfl

variable {body : Value → Evaluation Id Value} {items : List Value}

/-! ## Selections -/

/-- The error that an outcome of the body is to a loop that takes truth values. -/
def fault? (kind : Loop) : Except EvalError Value → Option EvalError
  | .error e => some e
  | .ok (.bool _) => none
  | .ok v => some (.noOverload kind.name [v.typeName])

/-- Whether an outcome is the truth value `true`. -/
def holds : Except EvalError Value → Bool
  | .ok (.bool t) => t
  | _ => false

/-- A selection fails with the first outcome that is no truth value. If there is none, it keeps the
items of which the body holds, in their order. -/
theorem keep_run (kind : Loop) (body : Value → Evaluation Id Value) (items : List Value) :
    (keep kind body items).run =
      match (items.map fun v => (body v).run).findSome? (fault? kind) with
      | some e => .error e
      | none => .ok (items.filter fun v => holds (body v).run) := by
  induction items with
  | nil => rfl
  | cons v rest ih =>
    rw [keep, run_bind_eq, List.map_cons, List.findSome?_cons, List.filter_cons]
    cases (body v).run with
    | error e => rfl
    | ok w =>
      cases w with
      | bool t =>
        -- The body holds or not of this item, and what is left decides the rest.
        show ExceptT.run
          (keep kind body rest >>= fun kept => pure (if t then v :: kept else kept)) = _
        rw [run_bind_eq, ih]
        show _ = match (rest.map fun v => (body v).run).findSome? (fault? kind) with
          | some e => _
          | none => _
        cases (rest.map fun v => (body v).run).findSome? (fault? kind) with
        | some e => rfl
        | none => cases t <;> rfl
      | _ => rfl

/-- The items kept are the value of `filter`. -/
theorem filter_run (body : Value → Evaluation Id Value) (items : List Value) :
    (loop .filter body items).run =
      match (items.map fun v => (body v).run).findSome? (fault? .filter) with
      | some e => .error e
      | none => .ok (.list (items.filter fun v => holds (body v).run)) := by
  unfold loop
  dsimp only
  rw [run_bind_eq, keep_run]
  cases (items.map fun v => (body v).run).findSome? (fault? .filter) <;> rfl

/-- The number of items kept is the concern of `exists_one`. -/
theorem one_run (body : Value → Evaluation Id Value) (items : List Value) :
    (loop .one body items).run =
      match (items.map fun v => (body v).run).findSome? (fault? .one) with
      | some e => .error e
      | none => .ok (.bool ((items.filter fun v => holds (body v).run).length == 1)) := by
  unfold loop
  dsimp only
  rw [run_bind_eq, keep_run]
  cases (items.map fun v => (body v).run).findSome? (fault? .one) <;> rfl

/-- What stops one of two selections stops the other, with the same error up to their names. -/
theorem fault?_sameButName (kind kind' : Loop) (r : Except EvalError Value) :
    (fault? kind r = none ∧ fault? kind' r = none) ∨
      ∃ e e', fault? kind r = some e ∧ fault? kind' r = some e' ∧
        e.SameButName kind.name kind'.name e' := by
  rcases r with e | v
  · exact Or.inr ⟨e, e, rfl, rfl, .same e⟩
  · cases v with
    | bool t => exact Or.inl ⟨rfl, rfl⟩
    | _ => exact Or.inr ⟨_, _, rfl, rfl, .refused _⟩

/-- Of the same outcomes the same one stops two selections, if any does. -/
theorem findSome?_fault?_sameButName (kind kind' : Loop)
    (outcomes : List (Except EvalError Value)) :
    (outcomes.findSome? (fault? kind) = none ∧ outcomes.findSome? (fault? kind') = none) ∨
      ∃ e e', outcomes.findSome? (fault? kind) = some e ∧
        outcomes.findSome? (fault? kind') = some e' ∧
        e.SameButName kind.name kind'.name e' := by
  induction outcomes with
  | nil => exact Or.inl ⟨rfl, rfl⟩
  | cons r rest ih =>
    rw [List.findSome?_cons, List.findSome?_cons]
    -- Either both loops stop at this outcome or neither does.
    rcases fault?_sameButName kind kind' r with ⟨h, h'⟩ | ⟨e, e', h, h', hsame⟩
    · rw [h, h']
      exact ih
    · rw [h, h']
      exact Or.inr ⟨e, e', rfl, rfl, hsame⟩

/-- Where `filter` has a value, `exists_one` says whether it kept one item. -/
theorem one_of_filter {w : Value} (h : (loop .filter body items).run = .ok w) :
    let kept := items.filter fun v => holds (body v).run
    w = .list kept ∧ (loop .one body items).run = .ok (.bool (kept.length == 1)) := by
  rw [filter_run] at h
  rw [one_run]
  rcases findSome?_fault?_sameButName .filter .one (items.map fun v => (body v).run) with
    ⟨hfilter, hone⟩ | ⟨e, e', hfilter, -, -⟩
  · rw [hfilter] at h
    rw [hone]
    exact ⟨(Except.ok.inj h).symm, rfl⟩
  · rw [hfilter] at h
    cases h

/-- Where `filter` fails, `exists_one` fails in the same way. -/
theorem one_of_filter_error {e : EvalError} (h : (loop .filter body items).run = .error e) :
    ∃ e', (loop .one body items).run = .error e' ∧
      e.SameButName Loop.filter.name Loop.one.name e' := by
  rw [filter_run] at h
  rw [one_run]
  rcases findSome?_fault?_sameButName .filter .one (items.map fun v => (body v).run) with
    ⟨hfilter, -⟩ | ⟨_, e', hfilter, hone, hsame⟩
  · rw [hfilter] at h
    cases h
  · rw [hfilter] at h
    obtain rfl := Except.error.inj h
    rw [hone]
    exact ⟨e', rfl, hsame⟩

/-! ## Images -/

/-- The results of a body are those of all items, if none fails; otherwise the first error. -/
theorem collect_run (body : Value → Evaluation Id Value) (items : List Value) :
    (∃ results, (collect body items).run = .ok results ∧
        (items.map fun v => (body v).run) = results.map .ok) ∨
      ∃ (e : EvalError) (before : List Value) (after : List (Except EvalError Value)),
        (collect body items).run = .error e ∧
          (items.map fun v => (body v).run) = before.map .ok ++ .error e :: after := by
  induction items with
  | nil => exact Or.inl ⟨[], rfl, rfl⟩
  | cons v rest ih =>
    rw [collect, run_bind_eq, List.map_cons]
    cases (body v).run with
    | error e => exact Or.inr ⟨e, [], _, rfl, rfl⟩
    | ok w =>
      dsimp only
      rw [run_bind_eq]
      -- This item is a result, whether or not the others have one each.
      rcases ih with ⟨results, hrun, hall⟩ | ⟨e, before, after, hrun, hall⟩
      · rw [hrun, hall]
        exact Or.inl ⟨w :: results, rfl, rfl⟩
      · rw [hrun, hall]
        exact Or.inr ⟨e, w :: before, after, rfl, rfl⟩

/-- Values alone do not hold an error. -/
theorem map_ok_ne_append_error {results before : List Value} {e : EvalError}
    {after : List (Except EvalError Value)} :
    results.map .ok ≠ before.map .ok ++ .error e :: after := by
  intro h
  have hmem : (.error e : Except EvalError Value) ∈ results.map .ok :=
    h ▸ List.mem_append_right _ List.mem_cons_self
  obtain ⟨v, -, hv⟩ := List.mem_map.mp hmem
  cases hv

/-- Values that are told apart are still told apart as results. -/
theorem map_ok_injective :
    Function.Injective (List.map (.ok : Value → Except EvalError Value)) :=
  List.map_injective_iff.mpr fun _ _ => Except.ok.inj

/-- Of two lists with an error the first error is the same. -/
theorem eq_of_append_error {before before' : List Value} {e e' : EvalError}
    {after after' : List (Except EvalError Value)}
    (h : before.map .ok ++ .error e :: after = before'.map .ok ++ .error e' :: after') :
    e = e' := by
  induction before generalizing before' with
  | nil =>
    cases before' with
    | nil => exact Except.error.inj (List.cons.inj h).1
    | cons => cases (List.cons.inj h).1
  | cons v rest ih =>
    cases before' with
    | nil => cases (List.cons.inj h).1
    | cons v' rest' => exact ih (List.cons.inj h).2

/-- The values of a body are collected if it has one at each item. -/
theorem collect_eq_ok_iff {results : List Value} :
    (collect body items).run = .ok results ↔
      (items.map fun v => (body v).run) = results.map .ok := by
  rcases collect_run body items with ⟨known, hrun, hall⟩ | ⟨e, before, after, hrun, hall⟩
  · rw [hrun, hall, map_ok_injective.eq_iff]
    exact ⟨Except.ok.inj, congrArg _⟩
  · rw [hrun, hall]
    exact iff_of_false nofun map_ok_ne_append_error.symm

/-- Collecting fails with the error of the first item at which the body has no value. -/
theorem collect_eq_error_iff {e : EvalError} :
    (collect body items).run = .error e ↔
      ∃ (before : List Value) (after : List (Except EvalError Value)),
        (items.map fun v => (body v).run) = before.map .ok ++ .error e :: after := by
  rcases collect_run body items with ⟨known, hrun, hall⟩ | ⟨first, before, after, hrun, hall⟩
  · rw [hrun, hall]
    exact iff_of_false nofun fun ⟨_, _, h⟩ => map_ok_ne_append_error h
  · rw [hrun, hall]
    constructor
    · rintro ⟨⟩
      exact ⟨before, after, rfl⟩
    · rintro ⟨before', after', h⟩
      rw [eq_of_append_error h]

/-- The results of the body are the value of `map`. -/
theorem map_run (body : Value → Evaluation Id Value) (items : List Value) :
    (loop .map body items).run =
      match (collect body items).run with
      | .ok results => .ok (.list results)
      | .error e => .error e := by
  unfold loop
  dsimp only
  rw [run_bind_eq]
  cases (collect body items).run <;> rfl

/-- The macro `map` gives the list of the values of its body. -/
theorem map_eq_ok_iff {w : Value} :
    (loop .map body items).run = .ok w ↔
      ∃ results, (items.map fun v => (body v).run) = results.map .ok ∧ w = .list results := by
  simp only [← collect_eq_ok_iff]
  rw [map_run]
  cases (collect body items).run with
  | error e => exact iff_of_false nofun fun ⟨_, h, _⟩ => nomatch h
  | ok results =>
    constructor
    · rintro ⟨⟩
      exact ⟨results, rfl, rfl⟩
    · rintro ⟨_, ⟨⟩, rfl⟩
      rfl

/-- The macro `map` fails with the first error of its body. -/
theorem map_eq_error_iff {e : EvalError} :
    (loop .map body items).run = .error e ↔
      ∃ (before : List Value) (after : List (Except EvalError Value)),
        (items.map fun v => (body v).run) = before.map .ok ++ .error e :: after := by
  rw [← collect_eq_error_iff, map_run]
  cases (collect body items).run with
  | error e' =>
    constructor
    all_goals
      rintro ⟨⟩
      rfl
  | ok results => exact iff_of_false nofun nofun

end Evaluation

namespace Expr

open Evaluation

variable {α : Type} {b : Bindings} {values scope : Table String Value} {var : String}
  {range body : Expr α}

/-- A loop over the items of its range, if the range has items. -/
theorem eval_comprehension (mark : α) (kind : Loop) :
    (comprehension mark kind var range body).eval b values scope =
      match range.eval b values scope with
      | .error e => .error e
      | .ok v =>
        match v.items? with
        | none => .error (.noItems v.typeName)
        | some items => (loop kind
            (fun item => body.evaluate (b.interface values) ((var, item) :: scope)) items).run := by
  unfold eval
  rw [evaluate, run_bind_eq]
  cases (range.evaluate (b.interface values) scope).run with
  | error e => rfl
  | ok v =>
    dsimp only
    cases v.items? <;> rfl

/-- Selections and images. If `filter` has a value, it is the list of the items of which the body
holds, and `exists_one` says whether that is one item; if `filter` fails, `exists_one` fails with
the same error but for the name under which it refuses a value that is no truth value. `map` has a
value if the body has one for every item, and it is the list of these; otherwise it fails as the
body does for the first item for which it fails. -/
theorem selections_agree (b : Bindings) (values scope : Table String Value) (m₁ m₂ m₃ : α)
    (var : String) (range body : Expr α) :
    let outcome := fun item => body.eval b values ((var, item) :: scope)
    let selection := (comprehension m₁ .filter var range body).eval b values scope
    let unique := (comprehension m₂ .one var range body).eval b values scope
    let images := (comprehension m₃ .map var range body).eval b values scope
    (∀ w, selection = .ok w → ∃ v items, range.eval b values scope = .ok v ∧
        v.items? = some items ∧
        let kept := items.filter fun item => holds (outcome item)
        w = .list kept ∧ unique = .ok (.bool (kept.length == 1))) ∧
      (∀ e, selection = .error e → ∃ e', unique = .error e' ∧
        e.SameButName Loop.filter.name Loop.one.name e') ∧
      ∀ v items, range.eval b values scope = .ok v → v.items? = some items →
        (∀ w, images = .ok w ↔ ∃ results, items.map outcome = results.map .ok ∧
          w = .list results) ∧
        ∀ e, images = .error e ↔
          ∃ (before : List Value) (after : List (Except EvalError Value)),
            items.map outcome = before.map .ok ++ .error e :: after := by
  simp only [eval_comprehension]
  -- A range that fails, or that has no items, lets all three fail in the same way.
  cases range.eval b values scope with
  | error e =>
    refine ⟨fun w hw => ?_, fun e' he' => ⟨e', he', .same e'⟩, fun v items hv => ?_⟩
    · cases hw
    · cases hv
  | ok v =>
    dsimp only
    cases hitems : v.items? with
    | none =>
      refine ⟨fun w hw => ?_, fun e' he' => ⟨e', he', .same e'⟩, fun v' items' hv' hitems' => ?_⟩
      · cases hw
      · obtain rfl := Except.ok.inj hv'
        rw [hitems] at hitems'
        cases hitems'
    | some items =>
      refine ⟨fun w hw => ⟨v, items, rfl, hitems, one_of_filter hw⟩,
        fun e he => one_of_filter_error he, fun v' items' hv' hitems' => ?_⟩
      obtain rfl := Except.ok.inj hv'
      obtain rfl := Option.some.inj (hitems.symm.trans hitems')
      exact ⟨fun w => map_eq_ok_iff, fun e => map_eq_error_iff⟩

/-- Of three numbers two are kept, so none is the only one, and the first quotient that fails is
that by zero. -/
theorem selections_agree_numbers :
    let range : Expr Unit :=
      .list () [.literal () (.int 2), .literal () (.int 0), .literal () (.int 3)]
    let isPositive : Expr Unit := .call () "_<_" [.literal () (.int 0), .ident () "x"]
    let quotient : Expr Unit := .call () "_/_" [.literal () (.int 6), .ident () "x"]
    (comprehension () .filter "x" range isPositive).eval [] [] [] =
        .ok (.list [.int 2, .int 3]) ∧
      (comprehension () .one "x" range isPositive).eval [] [] [] = .ok (.bool false) ∧
      (comprehension () .map "x" range quotient).eval [] [] [] = .error .divisionByZero := by
  intro range isPositive quotient
  -- Two of the three numbers are positive, so none is the only one.
  have hselection : (comprehension () .filter "x" range isPositive).eval [] [] [] =
      .ok (.list [.int 2, .int 3]) := rfl
  obtain ⟨v, items, -, hitems, hkept, hunique⟩ :=
    (selections_agree [] [] [] () () () "x" range isPositive).1 _ hselection
  have himages := (selections_agree [] [] [] () () () "x" range quotient).2.2
    (.list [.int 2, .int 0, .int 3]) _ rfl rfl
  rw [← Value.list.inj hkept] at hunique
  exact ⟨hselection, hunique, (himages.2 _).mpr ⟨[.int 3], [.ok (.int 2)], rfl⟩⟩

end Expr

end CelShell
