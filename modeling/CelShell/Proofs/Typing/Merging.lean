import CelShell.Proofs.Typing.Locality
import CelShell.Typing.Standard
import Mathlib.Data.List.Infix
import Mathlib.Data.List.Nodup

/-!
# Declarations that build on each other

A function that is declared again keeps its overloads, in front and in order, and gets those whose
ids are new (`Declaration.mem_merge`). So the ids of a function stay distinct where they are
distinct at the start. The first declaration of a name is taken as it is, with the ids that it
repeats: these are the only ids that ever stand twice (`Declarations.distinct_tryAll`), and a
declaration that contradicts itself is the only one that is refused when it is repeated
(`Declarations.declare_again`).
-/

namespace CelShell

namespace Declaration

variable {d : Declaration} {more : List Overload}

/-- The ids of the overloads, in order. -/
def ids (d : Declaration) : List String := d.overloads.map Overload.id

/-- No id stands for two signatures. -/
def IsConsistent (d : Declaration) : Prop :=
  ∀ o ∈ d.overloads, ∀ p ∈ d.overloads, o.id = p.id → o = p

/-! ## Adding overloads -/

/-- An id is taken when an overload has it. -/
theorem any_id_iff {overloads : List Overload} {id : String} :
    (overloads.any fun p => p.id == id) = true ↔ id ∈ overloads.map Overload.id := by
  simp only [List.any_eq_true, beq_iff_eq, List.mem_map]

/-- An overload whose id is taken is left out. -/
theorem addOverload_of_mem {overloads : List Overload} {o : Overload}
    (h : o.id ∈ overloads.map Overload.id) : addOverload overloads o = overloads :=
  if_pos (any_id_iff.mpr h)

/-- An overload with a new id comes last. -/
theorem addOverload_of_notMem {overloads : List Overload} {o : Overload}
    (h : o.id ∉ overloads.map Overload.id) : addOverload overloads o = overloads ++ [o] :=
  if_neg fun hany => h (any_id_iff.mp hany)

/-- The overloads of a function stay, in front of those that are added. -/
theorem prefix_merge (d : Declaration) (more : List Overload) :
    d.overloads <+: (d.merge more).overloads := by
  -- The induction is on what is added, so it has to hold of any overloads that are there.
  suffices h : ∀ overloads, overloads <+: more.foldl addOverload overloads from h d.overloads
  induction more with
  | nil => exact fun overloads => List.prefix_rfl
  | cons o rest ih =>
    intro overloads
    refine List.IsPrefix.trans ?_ (ih (addOverload overloads o))
    by_cases h : o.id ∈ overloads.map Overload.id
    · rw [addOverload_of_mem h]
    · rw [addOverload_of_notMem h]
      exact List.prefix_append overloads [o]

/-- Of the overloads that are added, each new id gets the first one that has it. -/
theorem mem_merge {o : Overload} :
    o ∈ (d.merge more).overloads ↔
      o ∈ d.overloads ∨ (o.id ∉ d.ids ∧ more.find? (fun p => p.id == o.id) = some o) := by
  suffices h : ∀ overloads, o ∈ more.foldl addOverload overloads ↔ o ∈ overloads ∨
      (o.id ∉ overloads.map Overload.id ∧ more.find? (fun p => p.id == o.id) = some o) from
    h d.overloads
  induction more with
  | nil => simp
  | cons m rest ih =>
    intro overloads
    rw [List.foldl_cons, ih, List.find?_cons]
    by_cases hm : m.id = o.id
    · -- This is the first overload with the id: it is added, or the id was taken before.
      by_cases htaken : m.id ∈ overloads.map Overload.id
      · rw [addOverload_of_mem htaken, ← hm]
        simp [htaken]
      · rw [addOverload_of_notMem htaken, ← hm]
        simp [htaken, eq_comm]
    · -- Another id: whether it is added makes no difference to this one.
      by_cases htaken : m.id ∈ overloads.map Overload.id
      · rw [addOverload_of_mem htaken, beq_eq_false_iff_ne.mpr hm]
      · have hne : o ≠ m := fun h => hm (congrArg Overload.id h.symm)
        rw [addOverload_of_notMem htaken, beq_eq_false_iff_ne.mpr hm]
        simp [hne, Ne.symm hm]

/-- An overload with each of the ids is there afterwards. -/
theorem id_mem_merge {o : Overload} (h : o ∈ more) : o.id ∈ (d.merge more).ids := by
  by_cases hd : o.id ∈ d.ids
  · exact (prefix_merge d more).map Overload.id |>.subset hd
  · cases hfind : more.find? fun p => p.id == o.id with
    | none => exact absurd (beq_self_eq_true o.id) (List.find?_eq_none.mp hfind o h)
    | some p =>
      have hp : p.id = o.id := by simpa using List.find?_some hfind
      refine List.mem_map.mpr ⟨p, mem_merge.mpr (Or.inr ?_), hp⟩
      rw [hp]
      exact ⟨hd, hfind⟩

/-- Nothing is added when all ids are taken. -/
theorem merge_eq_self (h : ∀ o ∈ more, o.id ∈ d.ids) : d.merge more = d := by
  have hfold : ∀ overloads : List Overload, (∀ o ∈ more, o.id ∈ overloads.map Overload.id) →
      more.foldl addOverload overloads = overloads := by
    intro overloads hall
    induction more with
    | nil => rfl
    | cons o rest ih =>
      obtain ⟨ho, hrest⟩ := List.forall_mem_cons.mp hall
      rw [List.foldl_cons, addOverload_of_mem ho]
      exact ih (fun p hp => h p (List.mem_cons_of_mem o hp)) hrest
  unfold merge
  rw [hfold d.overloads h]

/-- To add overloads repeats no id. -/
theorem nodup_ids_merge : (d.merge more).ids.Nodup ↔ d.ids.Nodup := by
  refine ⟨fun h => h.sublist ((prefix_merge d more).map Overload.id).sublist, ?_⟩
  suffices h : ∀ overloads : List Overload, (overloads.map Overload.id).Nodup →
      ((more.foldl addOverload overloads).map Overload.id).Nodup from h d.overloads
  induction more with
  | nil => exact fun _ h => h
  | cons o rest ih =>
    intro overloads hnodup
    apply ih
    -- An id that is known adds nothing, and any other goes to the end.
    by_cases h : o.id ∈ overloads.map Overload.id
    · rw [addOverload_of_mem h]
      exact hnodup
    · rw [addOverload_of_notMem h, List.map_append, List.map_singleton, ← List.concat_eq_append]
      exact hnodup.concat h

/-- An overload conflicts with a function that has its id with another signature. -/
theorem any_conflict_iff {o : Overload} :
    (d.overloads.any fun p => p.id == o.id && p != o) = true ↔
      ∃ p ∈ d.overloads, p.id = o.id ∧ p ≠ o := by
  simp only [List.any_eq_true, Bool.and_eq_true, beq_iff_eq, bne_iff_ne]

/-- Overloads fit to a function when none has one of its ids with another signature. -/
theorem conflict?_eq_none_iff :
    d.conflict? more = none ↔ ∀ o ∈ more, ∀ p ∈ d.overloads, p.id = o.id → p = o := by
  simp only [conflict?, List.find?_eq_none, any_conflict_iff, not_exists, not_and,
    Decidable.not_not]

/-- Overloads do not contradict each other when they fit to the function that they make up. -/
theorem isConsistent_iff : d.IsConsistent ↔ d.conflict? d.overloads = none := by
  rw [conflict?_eq_none_iff]
  exact ⟨fun h o ho p hp hid => h p hp o ho hid, fun h o ho p hp hid => h p hp o ho hid⟩

/-- Which overloads of a declaration that fits are there afterwards: the first with each id. -/
theorem mem_merge_of_fits {o : Overload} (hfits : d.conflict? more = none) (ho : o ∈ more) :
    o ∈ (d.merge more).overloads ↔ more.find? (fun p => p.id == o.id) = some o := by
  rw [mem_merge]
  constructor
  · rintro (hold | ⟨-, hfirst⟩)
    · -- The function has the overload already, so all that have its id are equal to it.
      have hsome : (more.find? fun p => p.id == o.id).isSome :=
        List.find?_isSome.mpr ⟨o, ho, beq_self_eq_true o.id⟩
      obtain ⟨p, hp⟩ := Option.isSome_iff_exists.mp hsome
      have hid : p.id = o.id := by simpa using List.find?_some hp
      rw [hp, conflict?_eq_none_iff.mp hfits p (List.mem_of_find?_eq_some hp) o hold hid.symm]
    · exact hfirst
  · intro hfirst
    by_cases hid : o.id ∈ d.ids
    · obtain ⟨p, hp, hpo⟩ := List.mem_map.mp hid
      exact Or.inl (conflict?_eq_none_iff.mp hfits o ho p hp hpo ▸ hp)
    · exact Or.inr ⟨hid, hfirst⟩

/-- The same overloads fit once more exactly when they do not contradict each other. -/
theorem conflict?_merge_eq_none_iff {f : Declaration} (hfits : d.conflict? f.overloads = none) :
    (d.merge f.overloads).conflict? f.overloads = none ↔ f.IsConsistent := by
  rw [conflict?_eq_none_iff]
  constructor
  · -- Two overloads with one id are both the one with the id that the function has now.
    intro h o ho p hp hid
    obtain ⟨q, hq, hqo⟩ := List.mem_map.mp (id_mem_merge (d := d) ho)
    rw [← h o ho q hq hqo, ← h p hp q hq (hqo.trans hid)]
  · intro h o ho p hp hid
    rcases mem_merge.mp hp with hold | ⟨-, hfirst⟩
    · exact conflict?_eq_none_iff.mp hfits o ho p hold hid
    · exact h p (List.mem_of_find?_eq_some hfirst) o ho hid

end Declaration

namespace Declarations

variable {d d' : Declarations} {f : Declaration}

/-- The overloads of a name, none if it is not declared. -/
def overloadsOf (d : Declarations) (name : String) : List Overload :=
  (d.function? name).elim [] Declaration.overloads

/-- No function has an id twice. -/
def Distinct (d : Declarations) : Prop := ∀ f ∈ d.functions, f.ids.Nodup

/-- The declarations after one more, which may be refused. -/
def tryDeclare (d : Declarations) (f : Declaration) : Declarations :=
  match d.declare f with
  | .ok d' => d'
  | .error _ => d

/-- The declarations after some more, each of which may be refused. -/
def tryAll (d : Declarations) (fs : List Declaration) : Declarations := fs.foldl tryDeclare d

/-! ## One declaration -/

/-- Nothing is declared under a name that no function has. -/
theorem function?_eq_none {name : String} :
    d.function? name = none ↔ ∀ f ∈ d.functions, f.name ≠ name := by
  simp only [function?, List.find?_eq_none, beq_iff_eq, ne_eq]

/-- A function that is added under a new name is found. -/
theorem function?_append (hnew : d.function? f.name = none) :
    function? ⟨d.functions ++ [f], d.variableTypes⟩ f.name = some f := by
  unfold function? at *
  rw [List.find?_append, hnew, Option.none_or, List.find?_singleton, beq_self_eq_true, if_pos rfl]

/-- The function of the name gets the overloads. -/
theorem function?_mergeInto (d : Declarations) (name : String) (more : List Overload) :
    function? { d with functions := mergeInto d.functions name more } name =
      (d.function? name).map fun f => f.merge more := by
  obtain ⟨functions, table⟩ := d
  unfold function? mergeInto
  induction functions with
  | nil => rfl
  | cons first rest ih =>
    rw [List.map_cons, List.find?_cons, List.find?_cons]
    -- Overloads change no name, so the same function is found before and after.
    by_cases hfirst : first.name = name
    · have hmerged : ((first.merge more).name == name) = true := beq_iff_eq.mpr hfirst
      rw [if_pos hfirst, hmerged, beq_iff_eq.mpr hfirst]
      rfl
    · rw [if_neg hfirst, beq_eq_false_iff_ne.mpr hfirst]
      exact ih

/-- To merge does not rename. -/
theorem functionNames_mergeInto (functions : List Declaration) (name : String)
    (more : List Overload) :
    (mergeInto functions name more).map Declaration.name = functions.map Declaration.name := by
  unfold mergeInto
  rw [List.map_map]
  refine List.map_congr_left fun f _ => ?_
  rw [Function.comp_apply]
  split <;> rfl

/-- Nothing changes when the function of the name has all the ids. -/
theorem mergeInto_eq_self {functions : List Declaration} {name : String} {more : List Overload}
    (h : ∀ f ∈ functions, f.name = name → ∀ o ∈ more, o.id ∈ f.ids) :
    mergeInto functions name more = functions := by
  unfold mergeInto
  refine (List.map_congr_left fun f hf => ?_).trans functions.map_id
  split
  · next hname => exact Declaration.merge_eq_self (h f hf hname)
  · rfl

/-- What is merged into the function of a name gives it all the ids. -/
theorem id_mem_of_mem_mergeInto {functions : List Declaration} {name : String}
    {more : List Overload} (hf : f ∈ mergeInto functions name more) (hname : f.name = name) :
    ∀ o ∈ more, o.id ∈ f.ids := by
  obtain ⟨g, -, rfl⟩ := List.mem_map.mp hf
  by_cases hg : g.name = name
  · rw [if_pos hg]
    exact fun _ => Declaration.id_mem_merge
  · rw [if_neg hg] at hname
    exact absurd hname hg

/-- To merge repeats no id of any function. -/
theorem distinct_mergeInto {name : String} {more : List Overload} {table : Table String Ty} :
    Distinct ⟨mergeInto d.functions name more, table⟩ ↔ d.Distinct := by
  have hmerged : ∀ f : Declaration,
      (if f.name = name then f.merge more else f).ids.Nodup ↔ f.ids.Nodup := by
    intro f
    split
    · exact Declaration.nodup_ids_merge
    · exact Iff.rfl
  unfold Distinct mergeInto
  simp only [List.forall_mem_map, hmerged]

/-- A declaration is refused exactly when it has no overloads, or gives an id that the function has
another signature. -/
theorem declare_eq_error_iff :
    (∃ e, d.declare f = .error e) ↔
      f.overloads = [] ∨ ∃ o ∈ f.overloads, ∃ p ∈ d.overloadsOf f.name, p.id = o.id ∧ p ≠ o := by
  unfold declare overloadsOf
  cases hempty : f.overloads with
  | nil => simp
  | cons first rest =>
    rw [← hempty, if_neg (by rw [hempty]; exact Bool.false_ne_true)]
    cases d.function? f.name with
    | none => simp [hempty]
    | some existing =>
      cases hfind : existing.conflict? f.overloads with
      | none =>
        -- No overload is in conflict, so an id that stands twice has one signature.
        have hfits := Declaration.conflict?_eq_none_iff.mp hfind
        simp only [hfind, reduceCtorEq, exists_false, false_iff]
        rintro (hnil | ⟨o, ho, p, hp, hid, hne⟩)
        · rw [hempty] at hnil
          cases hnil
        · exact hne (hfits o ho p hp hid)
      | some o =>
        simp only [hfind, Except.error.injEq, exists_eq', true_iff]
        -- The overload that was found is in conflict with one of its id.
        have hconflict := List.find?_some hfind
        exact Or.inr ⟨o, List.mem_of_find?_eq_some hfind,
          Declaration.any_conflict_iff.mp hconflict⟩

/-- What is declared stays declared. -/
theorem overloadsOf_declare (h : d.declare f = .ok d') (name : String) :
    d.overloadsOf name <+: d'.overloadsOf name := by
  by_cases hname : f.name = name
  · subst hname
    obtain ⟨-, ⟨hnew, -⟩ | ⟨existing, hknown, -, rfl⟩⟩ := declare_eq_ok h
    · unfold overloadsOf
      rw [hnew]
      exact List.nil_prefix
    · unfold overloadsOf
      rw [function?_mergeInto, hknown]
      exact existing.prefix_merge f.overloads
  · unfold overloadsOf
    rw [function?_declare h hname]

/-- Which overloads of a declaration that is accepted are there afterwards: all that a new name
gets, and of others the first with each id. -/
theorem mem_overloadsOf_declare (h : d.declare f = .ok d') {o : Overload} (ho : o ∈ f.overloads) :
    o ∈ d'.overloadsOf f.name ↔
      d.function? f.name = none ∨ f.overloads.find? (fun p => p.id == o.id) = some o := by
  obtain ⟨-, ⟨hnew, rfl⟩ | ⟨existing, hknown, hfits, rfl⟩⟩ := declare_eq_ok h
  · unfold overloadsOf
    rw [function?_append hnew, hnew]
    exact iff_of_true ho (Or.inl rfl)
  · unfold overloadsOf
    rw [function?_mergeInto, hknown]
    simpa using Declaration.mem_merge_of_fits hfits ho

/-- Overloads whose ids the function has are accepted without effect exactly when they fit. -/
theorem declare_eq_self_iff {existing : Declaration} (hsome : f.overloads ≠ [])
    (hknown : d.function? f.name = some existing)
    (hmerge : mergeInto d.functions f.name f.overloads = d.functions) :
    d.declare f = .ok d ↔ existing.conflict? f.overloads = none := by
  have hempty : f.overloads.isEmpty ≠ true := fun h => hsome (List.isEmpty_iff.mp h)
  unfold declare
  rw [if_neg hempty, hknown, hmerge]
  cases hfind : existing.conflict? f.overloads <;> simp [hfind]

/-- A declaration that is accepted is accepted once more, without effect, exactly when it does not
contradict itself. -/
theorem declare_again (h : d.declare f = .ok d') : d'.declare f = .ok d' ↔ f.IsConsistent := by
  obtain ⟨hsome, ⟨hnew, rfl⟩ | ⟨existing, hknown, hfits, rfl⟩⟩ := declare_eq_ok h
  · -- A new function is the declaration itself, and no other function has its name.
    rw [declare_eq_self_iff hsome (function?_append hnew), Declaration.isConsistent_iff]
    refine mergeInto_eq_self fun g hg hname o ho => ?_
    rcases List.mem_append.mp hg with hold | hlast
    · exact absurd hname (function?_eq_none.mp hnew g hold)
    · rw [List.mem_singleton.mp hlast]
      exact List.mem_map_of_mem ho
  · have hmerged := function?_mergeInto d f.name f.overloads
    rw [hknown] at hmerged
    rw [declare_eq_self_iff hsome hmerged, Declaration.conflict?_merge_eq_none_iff hfits]
    exact mergeInto_eq_self fun _ => id_mem_of_mem_mergeInto

/-- The names stay distinct. -/
theorem nodup_functionNames_tryDeclare (h : d.functionNames.Nodup) :
    (d.tryDeclare f).functionNames.Nodup := by
  unfold tryDeclare
  cases hd : d.declare f with
  | error e => exact h
  | ok d' =>
    obtain ⟨-, ⟨hnew, rfl⟩ | ⟨existing, -, -, rfl⟩⟩ := declare_eq_ok hd
    · unfold functionNames at *
      rw [List.map_append, List.map_singleton, ← List.concat_eq_append]
      -- The name is new, as no function of it was found.
      refine h.concat fun hmem => ?_
      obtain ⟨g, hg, hname⟩ := List.mem_map.mp hmem
      exact function?_eq_none.mp hnew g hg hname
    · unfold functionNames at *
      rw [functionNames_mergeInto]
      exact h

/-- One declaration repeats an id exactly when it is the first one of its name and repeats an id
itself. -/
theorem distinct_tryDeclare :
    (d.tryDeclare f).Distinct ↔
      d.Distinct ∧ (d.function? f.name = none → f.ids.Nodup) := by
  unfold tryDeclare
  cases hd : d.declare f with
  | error e =>
    refine iff_self_and.mpr fun _ hnew => ?_
    -- A new name is refused only without overloads.
    rcases declare_eq_error_iff.mp ⟨e, hd⟩ with hempty | ⟨o, -, p, hp, -⟩
    · unfold Declaration.ids
      rw [hempty]
      exact List.nodup_nil
    · unfold overloadsOf at hp
      rw [hnew] at hp
      cases hp
  | ok d' =>
    obtain ⟨-, ⟨hnew, rfl⟩ | ⟨existing, hknown, -, rfl⟩⟩ := declare_eq_ok hd
    · unfold Distinct
      simp only [hnew, List.forall_mem_append, List.forall_mem_singleton, true_imp_iff]
    · rw [hknown]
      simpa using distinct_mergeInto

/-! ## Any number of declarations -/

/-- The names stay distinct over any declarations. -/
theorem nodup_functionNames_tryAll (fs : List Declaration) (h : d.functionNames.Nodup) :
    (d.tryAll fs).functionNames.Nodup := by
  induction fs generalizing d with
  | nil => exact h
  | cons f rest ih => exact ih (nodup_functionNames_tryDeclare h)

/-- Over any declarations, the ids stay distinct exactly when no first declaration of a name repeats
one. -/
theorem distinct_tryAll (fs : List Declaration) :
    (d.tryAll fs).Distinct ↔ d.Distinct ∧ ∀ before g after, fs = before ++ g :: after →
      (d.tryAll before).function? g.name = none → g.ids.Nodup := by
  induction fs generalizing d with
  | nil => simp [tryAll]
  | cons f rest ih =>
    have hstep : (d.tryAll (f :: rest)) = (d.tryDeclare f).tryAll rest := rfl
    rw [hstep, ih, distinct_tryDeclare, and_assoc]
    -- A place in the list is the first one or a place in the rest.
    refine and_congr_right fun _ => ⟨?_, ?_⟩
    · rintro ⟨hfirst, hrest⟩ before g after hsplit
      cases before with
      | nil =>
        obtain ⟨rfl, rfl⟩ := List.cons.inj hsplit
        exact hfirst
      | cons f' before =>
        obtain ⟨rfl, rfl⟩ := List.cons.inj hsplit
        exact hrest before g after rfl
    · intro h
      exact ⟨h [] f rest rfl, fun before g after hsplit =>
        h (f :: before) g after (congrArg (f :: ·) hsplit)⟩

/-! ## Declarations on top of the standard ones -/

/-- The standard functions have distinct names, and distinct ids. -/
theorem standard_distinct : standard.functionNames.Nodup ∧ standard.Distinct := by
  constructor
  · decide +kernel
  · unfold Distinct
    decide +kernel

/-- Declarations one after the other on top of the standard ones, and one more on top of these. An
id stands twice only in a function whose first declaration repeats it. A declaration that is refused
has no effect, one that is accepted keeps what is declared, and of its own overloads it adds the
first with each id, or all of them under a new name. It is accepted again without effect exactly
when no id in it stands for two signatures. -/
theorem declare_after_standard (fs : List Declaration) (f : Declaration) :
    (standard.tryAll fs).functionNames.Nodup ∧
      ((standard.tryAll fs).Distinct ↔ ∀ before g after, fs = before ++ g :: after →
        (standard.tryAll before).function? g.name = none → g.ids.Nodup) ∧
      ((∃ e, (standard.tryAll fs).declare f = .error e) ↔ f.overloads = [] ∨
        ∃ o ∈ f.overloads, ∃ p ∈ (standard.tryAll fs).overloadsOf f.name, p.id = o.id ∧ p ≠ o) ∧
      (∀ e, (standard.tryAll fs).declare f = .error e →
        standard.tryAll (fs ++ [f]) = standard.tryAll fs) ∧
      ∀ d', (standard.tryAll fs).declare f = .ok d' →
        standard.tryAll (fs ++ [f]) = d' ∧
        d'.variableTypes = (standard.tryAll fs).variableTypes ∧
        (∀ name, f.name ≠ name → d'.function? name = (standard.tryAll fs).function? name) ∧
        (∀ name, (standard.tryAll fs).overloadsOf name <+: d'.overloadsOf name) ∧
        (∀ o ∈ f.overloads, o ∈ d'.overloadsOf f.name ↔
          (standard.tryAll fs).function? f.name = none ∨
            f.overloads.find? (fun p => p.id == o.id) = some o) ∧
        (d'.declare f = .ok d' ↔ f.IsConsistent) := by
  obtain ⟨hnames, hids⟩ := standard_distinct
  -- The last of the declarations comes on top of the others.
  have hlast : standard.tryAll (fs ++ [f]) = (standard.tryAll fs).tryDeclare f :=
    List.foldl_concat tryDeclare standard f fs
  refine ⟨nodup_functionNames_tryAll fs hnames,
    (distinct_tryAll fs).trans (and_iff_right hids), declare_eq_error_iff, ?_, ?_⟩
  · intro e he
    rw [hlast, tryDeclare, he]
  · intro d' hd
    refine ⟨?_, variableTypes_declare hd, fun _ => function?_declare hd, overloadsOf_declare hd,
      fun _ => mem_overloadsOf_declare hd, declare_again hd⟩
    rw [hlast, tryDeclare, hd]

/-- A function whose id stands for two signatures. -/
def clashing : Declaration :=
  ⟨"f", [globalOverload "a" [.int] .int, globalOverload "a" [.string] .string]⟩

/-- A declaration that contradicts itself is accepted, with both signatures under a new name and
without the second one otherwise, and is refused when it is repeated. -/
theorem declare_clashing :
    (∃ d', standard.declare clashing = .ok d' ∧ ¬ d'.Distinct ∧
        d'.declare clashing = .error (.overloadConflict "f" "a")) ∧
      ∃ d', (standard.tryAll [⟨"f", [globalOverload "b" [] .int]⟩]).declare clashing = .ok d' ∧
        globalOverload "a" [.string] .string ∉ d'.overloadsOf "f" := by
  constructor
  · have hnew : standard.declare clashing =
        .ok { standard with functions := standard.functions ++ [clashing] } := by decide +kernel
    refine ⟨_, hnew, fun hdistinct => ?_, by decide +kernel⟩
    have hids : clashing.ids.Nodup :=
      hdistinct clashing (List.mem_append_right _ (List.mem_singleton_self clashing))
    exact absurd hids (by decide)
  · refine ⟨_, rfl, ?_⟩
    decide +kernel

end Declarations

end CelShell
