import CelShell.Eval.Program
import CelShell.Proofs.Typing.Holds
import CelShell.Typing.Check

/-!
# What evaluations yield

`Yields P r` says of an outcome that its value, if there is one, satisfies `P`, and that its
error, if it is one, is not that of a missing variable. Each way of putting evaluations together
has a lemma that says what the whole yields if the parts yield what they should; an error of a
part is passed on or dropped, and none is made up.
-/

namespace CelShell

/-- The outcome is a value that satisfies a property, or the error of something other than a missing
variable. -/
inductive Yields (P : α → Prop) : Except EvalError α → Prop
  /-- A value that satisfies the property. -/
  | ok {a : α} (h : P a) : Yields P (.ok a)
  /-- Another error. -/
  | error {e : EvalError} (h : ∀ name, e ≠ .noSuchAttribute name) : Yields P (.error e)

namespace Yields

variable {α β : Type} {P : α → Prop} {Q : β → Prop}

/-- What is yielded has every weaker property. -/
theorem mono {P' : α → Prop} {r : Except EvalError α} (h : Yields P r) (hP : ∀ a, P a → P' a) :
    Yields P' r := by
  cases h with
  | ok h => exact .ok (hP _ h)
  | error h => exact .error h

/-- Nothing is claimed of a value by the property that always holds. -/
theorem of_anything {r : Except EvalError α} (h : Yields P r) : Yields (fun _ => True) r :=
  h.mono fun _ _ => trivial

/-- Arguments that a function does not take yield anything. -/
theorem refused (function : String) (args : List Value) : Yields P (refused function args) :=
  .error nofun

/-- One outcome after the other. -/
theorem bindExcept {r : Except EvalError α} {f : α → Except EvalError β} (h : Yields P r)
    (hf : ∀ a, P a → Yields Q (f a)) : Yields Q (r >>= f) := by
  cases h with
  | ok h => exact hf _ h
  | error h => exact .error h

/-- One evaluation after the other. -/
theorem bind {e : Evaluation Id α} {f : α → Evaluation Id β} (h : Yields P e.run)
    (hf : ∀ a, P a → Yields Q (f a).run) : Yields Q (e >>= f).run := by
  rw [ExceptT.run_bind]
  generalize e.run = r at h ⊢
  cases h with
  | ok h => exact hf _ h
  | error h => exact .error h

end Yields

namespace Evaluation

variable {α : Type}

/-- A way to end is yielded as it is. -/
theorem yields_ended {P : α → Prop} {r : Except EvalError α} (h : Yields P r) :
    Yields P (ended (m := Id) r).run := h

/-- The outcome of an evaluation is always a value. -/
theorem yields_outcome {P : α → Prop} {e : Evaluation Id α} (h : Yields P e.run) :
    Yields (Yields P) (outcome e).run := .ok h

/-- Refusing yields anything. -/
theorem yields_refuse {P : α → Prop} (function : String) (args : List Value) :
    Yields P (refuse (m := Id) function args).run := Yields.refused function args

/-- The values of some evaluations are of the types of the evaluations. -/
theorem yields_all {types : List Ty} {parts : List (Suspended Id)}
    (h : List.Forall₂ (fun t e => Yields (fun v => t.holds v = true) (e ()).run) types parts) :
    Yields (Ty.HoldsAll types) (all parts).run := by
  induction h with
  | nil => exact .ok List.Forall₂.nil
  | cons hfirst _ ih =>
    unfold all
    refine hfirst.bind fun v hv => ?_
    refine ih.bind fun rest hrest => ?_
    exact .ok (List.Forall₂.cons hv hrest)

/-! ## Connectives and the conditional -/

/-- An outcome that settles a connective is a truth value if it is a value. -/
theorem yields_of_settles {absorbing : Bool} {r : Except EvalError Value}
    (h : settles absorbing r = true) : Yields (fun v => Ty.bool.holds v = true) r := by
  unfold settles at h
  split at h
  · exact .error nofun
  · exact .ok rfl
  · cases h

/-- A connective yields a truth value. -/
theorem yields_connective {left right : Suspended Id} (function : String) (absorbing : Bool)
    (hleft : Yields (fun _ => True) (left ()).run)
    (hright : Yields (fun _ => True) (right ()).run) :
    Yields (fun v => Ty.bool.holds v = true) (connective function absorbing left right).run := by
  unfold connective
  refine (yields_outcome hleft).bind fun l hl => ?_
  split
  · next hsettled => exact yields_ended (yields_of_settles hsettled)
  · refine (yields_outcome hright).bind fun r hr => ?_
    split
    · next hsettled => exact yields_ended (yields_of_settles hsettled)
    · -- Neither settles: both have to be truth values, and an error of one is that of the whole.
      refine (yields_ended hl).bind fun a _ => ?_
      refine (yields_ended hr).bind fun b _ => ?_
      split
      · exact .ok rfl
      · exact yields_refuse function _

/-- A conditional yields what both branches yield. -/
theorem yields_conditional {P : Value → Prop} {condition yes no : Suspended Id}
    (hcondition : Yields (fun _ => True) (condition ()).run) (hyes : Yields P (yes ()).run)
    (hno : Yields P (no ()).run) : Yields P (conditional condition yes no).run := by
  unfold conditional
  refine hcondition.bind fun v _ => ?_
  split
  · exact hyes
  · exact hno
  · exact yields_refuse _ _

/-! ## Maps -/

/-- The entries of a table after one more are those it had and the new one. -/
theorem mem_insert {table : Table MapKey Value} {key : MapKey} {value : Value}
    {entry : MapKey × Value} (h : entry ∈ Table.insert table key value) :
    entry = (key, value) ∨ entry ∈ table := by
  induction table with
  | nil => exact Or.inl (List.mem_singleton.mp h)
  | cons first rest ih =>
    obtain ⟨k, v⟩ := first
    unfold Table.insert at h
    -- A new value takes the place of the one with its key, if there is one.
    split at h
    · rcases List.mem_cons.mp h with h | h
      · exact Or.inl h
      · exact Or.inr (List.mem_cons_of_mem _ h)
    · rcases List.mem_cons.mp h with h | h
      · exact Or.inr (h ▸ List.mem_cons_self)
      · exact (ih h).imp_right (List.mem_cons_of_mem _)

/-- A value that can be a key is the value of its key. -/
theorem ofKey_toKey {v : Value} {key : MapKey} (h : v.toKey? = some key) : Value.ofKey key = v := by
  cases v <;> cases h <;> rfl

/-- A map of keys and values of two types is of their map type. -/
theorem yields_mapOf {keyType valueType : Ty} {parts : List (Suspended Id × Suspended Id)}
    {entries : List (MapKey × Value)}
    (hparts : ∀ p ∈ parts, Yields (fun v => keyType.holds v = true) (p.1 ()).run ∧
      Yields (fun v => valueType.holds v = true) (p.2 ()).run)
    (hentries : (Ty.map keyType valueType).holds (.map entries) = true) :
    Yields (fun v => (Ty.map keyType valueType).holds v = true) (mapOf entries parts).run := by
  induction parts generalizing entries with
  | nil => exact .ok hentries
  | cons part rest ih =>
    obtain ⟨k, v⟩ := part
    obtain ⟨hk, hv⟩ := hparts (k, v) List.mem_cons_self
    have hrest := fun p hp => hparts p (List.mem_cons_of_mem _ hp)
    unfold mapOf
    refine hk.bind fun key hkey => ?_
    refine hv.bind fun value hvalue => ?_
    split
    · exact yields_ended (.error nofun)
    · next known hknown =>
      split
      · exact yields_ended (.error nofun)
      · -- The map with the new entry is of the type too.
        refine ih hrest (Ty.holds_map.mpr fun entry hentry => ?_)
        rcases mem_insert hentry with rfl | hold
        · exact ⟨(ofKey_toKey hknown).symm ▸ hkey, hvalue⟩
        · exact Ty.holds_map.mp hentries entry hold

/-! ## Loops -/

/-- A truth value is one of the two. -/
theorem yields_truth (kind : Loop) (v : Value) :
    Yields (fun _ => True) (truth (m := Id) kind v).run := by
  unfold truth
  split
  · exact .ok trivial
  · exact yields_refuse _ _

variable {body : Value → Evaluation Id Value} {items : List Value}

/-- The results of a body are of the type of the body. -/
theorem yields_collect {bodyType : Ty}
    (hbody : ∀ v ∈ items, Yields (fun r => bodyType.holds r = true) (body v).run) :
    Yields (fun results => ∀ r ∈ results, bodyType.holds r = true) (collect body items).run := by
  induction items with
  | nil => exact .ok fun r hr => absurd hr List.not_mem_nil
  | cons v rest ih =>
    unfold collect
    refine (hbody v List.mem_cons_self).bind fun result hresult => ?_
    refine (ih fun w hw => hbody w (List.mem_cons_of_mem _ hw)).bind fun results hresults => ?_
    exact .ok (List.forall_mem_cons.mpr ⟨hresult, hresults⟩)

/-- The items that are kept are among the items. -/
theorem yields_keep (kind : Loop) (hbody : ∀ v ∈ items, Yields (fun _ => True) (body v).run) :
    Yields (fun kept => ∀ v ∈ kept, v ∈ items) (keep kind body items).run := by
  induction items with
  | nil => exact .ok fun v hv => hv
  | cons v rest ih =>
    unfold keep
    refine (hbody v List.mem_cons_self).bind fun result _ => ?_
    refine (yields_truth kind result).bind fun held _ => ?_
    refine (ih fun w hw => hbody w (List.mem_cons_of_mem _ hw)).bind fun kept hkept => ?_
    have hrest : ∀ w ∈ kept, w ∈ v :: rest := fun w hw => List.mem_cons_of_mem _ (hkept w hw)
    cases held with
    | true => exact .ok (List.forall_mem_cons.mpr ⟨List.mem_cons_self, hrest⟩)
    | false => exact .ok hrest

/-- A search yields a truth value; the error that it puts off is one of the body. -/
theorem yields_search (kind : Loop) (deciding : Bool) {deferred : Option EvalError}
    (hbody : ∀ v ∈ items, Yields (fun _ => True) (body v).run)
    (hdeferred : ∀ e ∈ deferred, ∀ name, e ≠ .noSuchAttribute name) :
    Yields (fun v => Ty.bool.holds v = true) (search kind deciding body deferred items).run := by
  induction items generalizing deferred with
  | nil =>
    unfold search
    cases deferred with
    | none => exact .ok rfl
    | some e => exact yields_ended (.error (hdeferred e rfl))
  | cons v rest ih =>
    have hrest := fun w hw => hbody w (List.mem_cons_of_mem _ hw)
    unfold search
    refine (yields_outcome (hbody v List.mem_cons_self)).bind fun r hr => ?_
    split
    · exact yields_ended (.error nofun)
    · next error _ =>
      -- The first error is the one that is put off.
      refine ih hrest fun e he => ?_
      cases deferred with
      | none =>
        cases he
        cases hr with
        | error h => exact h
      | some first =>
        cases he
        exact hdeferred first rfl
    · next result =>
      refine (yields_truth kind result).bind fun held _ => ?_
      split
      · exact .ok rfl
      · exact ih hrest hdeferred

/-- A loop yields a value of the type of the loop. -/
theorem yields_loop (kind : Loop) {itemType bodyType : Ty}
    (hitems : ∀ v ∈ items, itemType.holds v = true)
    (hbody : ∀ v ∈ items, Yields (fun r => bodyType.holds r = true) (body v).run) :
    Yields (fun v => (kind.resultType itemType bodyType).holds v = true)
      (loop kind body items).run := by
  -- A predicate is read as what it is, so the type of its values does not matter here.
  have hany := fun v hv => (hbody v hv).of_anything
  cases kind with
  | all => exact yields_search .all false hany fun e he => absurd he (Option.not_mem_none e)
  | any => exact yields_search .any true hany fun e he => absurd he (Option.not_mem_none e)
  | one => exact (yields_keep .one hany).bind fun kept _ => .ok rfl
  | map =>
    refine (yields_collect hbody).bind fun results hresults => ?_
    exact .ok (Ty.holds_list.mpr hresults)
  | filter =>
    refine (yields_keep .filter hany).bind fun kept hkept => ?_
    exact .ok (Ty.holds_list.mpr fun v hv => hitems v (hkept v hv))

end Evaluation

end CelShell
