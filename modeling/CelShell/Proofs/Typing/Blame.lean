import CelShell.Proofs.Expr.Location
import CelShell.Typing.Check

/-!
# What type errors blame

Every error that is met in typing a tree is at the span of one of the nodes of the tree, whatever
is declared (`Expr.check_blames`). `Inferred.Blames` says this of a computation and some nodes. It
holds of a sequence if it holds of the steps, and with the nodes of a part it holds with those of
the whole.
-/

namespace CelShell

namespace Inferred

variable {α β : Type} {ns ns' : List Tree} {n : Tree} {x : Inferred α} {next : α → Inferred β}

/-- Every error is at the span of one of some nodes. -/
def Blames (ns : List Tree) (x : Inferred α) : Prop :=
  ∀ e ∈ x.errors, ∃ n ∈ ns, e.span = n.mark.span

/-- Errors at some nodes are errors at more. -/
theorem Blames.mono (h : Blames ns x) (hsub : ns ⊆ ns') : Blames ns' x := by
  intro e he
  obtain ⟨n, hn, hspan⟩ := h e he
  exact ⟨n, hsub hn, hspan⟩

/-- Without errors no node is blamed. -/
theorem blames_pure (ns : List Tree) (a : α) : Blames ns (pure a) :=
  fun _ he => absurd he List.not_mem_nil

/-- What two steps blame is what either does. -/
theorem Blames.bind (h : Blames ns x) (hnext : ∀ a, Blames ns (next a)) : Blames ns (x >>= next) :=
  List.forall_mem_append.2 ⟨h, hnext x.value⟩

/-- A report blames the node whose span it has. -/
theorem blames_report (fault : TypeFault) (hn : n ∈ ns) : Blames ns (report fault n.mark.span) :=
  List.forall_mem_singleton.2 ⟨n, hn, rfl⟩

/-- A failure blames the node whose span it has. -/
theorem blames_fail (fault : TypeFault) (hn : n ∈ ns) : Blames ns (fail fault n.mark.span) :=
  List.forall_mem_singleton.2 ⟨n, hn, rfl⟩

/-- A result blames the node whose span it has, if it is an error. -/
theorem blames_ofExcept (result : Except TypeFault Ty) (hn : n ∈ ns) :
    Blames ns (ofExcept result n.mark.span) := by
  cases result with
  | ok ty => exact blames_pure ns ty
  | error fault => exact blames_fail fault hn

/-- A missing type blames the node whose span it has. -/
theorem blames_ofOption (result : Option Ty) (fault : TypeFault) (hn : n ∈ ns) :
    Blames ns (ofOption result fault n.mark.span) := by
  cases result with
  | some ty => exact blames_pure ns ty
  | none => exact blames_fail fault hn

/-- An error may be reported before what comes next. -/
theorem blames_report_bind (b : Bool) (fault : TypeFault) {next : Unit → Inferred β} (hn : n ∈ ns)
    (hnext : Blames ns (next ())) :
    Blames ns (if b then report fault n.mark.span >>= next else next ()) := by
  cases b with
  | true => exact (blames_report fault hn).bind fun _ => hnext
  | false => exact hnext

end Inferred

namespace Expr

open Inferred List

variable (d : Declarations)

mutual

/-- The errors in a tree are at its nodes. -/
theorem blames_infer (scope : Table String Ty) : (t : Tree) → Blames t.nodes (t.infer d scope)
  | literal _ value => blames_pure _ _
  | ident m name => by
    unfold infer
    cases scope.get? name with
    | some ty => exact blames_pure _ ty
    | none => exact blames_ofOption _ _ (mem_nodes_self (ident m name))
  | select m operand field testOnly => by
    have hself := mem_nodes_self (select m operand field testOnly)
    have hoperand := (blames_infer scope operand).mono
      (subset_cons_self (select m operand field testOnly) _)
    unfold infer
    refine hoperand.bind fun ty => ?_
    cases ty.field? with
    | some field => exact blames_pure _ _
    | none => exact blames_fail _ hself
  | call m function args => by
    have hself := mem_nodes_self (call m function args)
    have hargs := (blames_inferList scope args).mono (subset_cons_self (call m function args) _)
    unfold infer
    exact hargs.bind fun types => blames_ofExcept _ hself
  | invoke m target function args => by
    have hself := mem_nodes_self (invoke m target function args)
    have htarget : target.nodes ⊆ (invoke m target function args).nodes :=
      subset_cons_of_subset _ (subset_append_left _ _)
    have hargs : nodesOfList args ⊆ (invoke m target function args).nodes :=
      subset_cons_of_subset _ (subset_append_right _ _)
    unfold infer
    refine ((blames_infer scope target).mono htarget).bind fun ty => ?_
    refine ((blames_inferList scope args).mono hargs).bind fun types => ?_
    exact blames_ofExcept _ hself
  | list m elements => by
    have helements := (blames_inferList scope elements).mono
      (subset_cons_self (list m elements) _)
    unfold infer
    exact helements.bind fun types => blames_pure _ _
  | map m entries => by
    have hentries := (blames_inferEntries scope entries).mono
      (subset_cons_self (map m entries) _)
    unfold infer
    exact hentries.bind fun types => blames_pure _ _
  | comprehension m loop var range body => by
    have hrange : range.nodes ⊆ (comprehension m loop var range body).nodes :=
      subset_cons_of_subset _ (subset_append_left _ _)
    have hbody : body.nodes ⊆ (comprehension m loop var range body).nodes :=
      subset_cons_of_subset _ (subset_append_right _ _)
    unfold infer
    -- The range is blamed if it has no items, and the body if it is no truth value.
    refine ((blames_infer scope range).mono hrange).bind fun rangeType => ?_
    refine (blames_ofOption _ _ (hrange range.mem_nodes_self)).bind fun varType => ?_
    refine ((blames_infer ((var, varType) :: scope) body).mono hbody).bind fun bodyType => ?_
    exact blames_report_bind _ _ (hbody body.mem_nodes_self) (blames_pure _ _)

/-- The errors of a list are at the nodes of its trees. -/
theorem blames_inferList (scope : Table String Ty) :
    (ts : List Tree) → Blames (nodesOfList ts) (inferList d scope ts)
  | [] => blames_pure _ _
  | t :: rest => by
    have hfirst := (blames_infer scope t).mono (subset_append_left _ (nodesOfList rest))
    have hrest := (blames_inferList scope rest).mono (subset_append_right t.nodes _)
    unfold inferList
    exact hfirst.bind fun ty => hrest.bind fun types => blames_pure _ _

/-- The errors of entries are at the nodes of their keys and values. -/
theorem blames_inferEntries (scope : Table String Ty) :
    (entries : List (Tree × Tree)) → Blames (nodesOfEntries entries) (inferEntries d scope entries)
  | [] => blames_pure _ _
  | (k, v) :: rest => by
    -- A fault is at a key, at a value or in the rest, and all their nodes are among those of the
    -- entries.
    have hentry : k.nodes ++ v.nodes ⊆ nodesOfEntries ((k, v) :: rest) := subset_append_left _ _
    have hkey : k.nodes ⊆ nodesOfEntries ((k, v) :: rest) :=
      List.Subset.trans (subset_append_left _ _) hentry
    have hvalue : v.nodes ⊆ nodesOfEntries ((k, v) :: rest) :=
      List.Subset.trans (subset_append_right _ _) hentry
    have hrest := (blames_inferEntries scope rest).mono
      (subset_append_right (k.nodes ++ v.nodes) _)
    unfold inferEntries
    refine ((blames_infer scope k).mono hkey).bind fun keyType => ?_
    refine blames_report_bind _ _ (hkey k.mem_nodes_self) ?_
    refine ((blames_infer scope v).mono hvalue).bind fun valueType => ?_
    exact hrest.bind fun types => blames_pure _ _

end

/-- Every error of a tree is at one of its nodes. -/
theorem check_blames {t : Tree} {errors : List TypeError} (h : t.check d = .error errors) :
    ∀ e ∈ errors, ∃ n ∈ t.nodes, e.span = n.mark.span := by
  unfold check at h
  dsimp only at h
  split at h
  · cases h
  · obtain rfl := Except.error.inj h
    exact blames_infer d [] t

end Expr

end CelShell
